import AgentGateway.Proofs.Ended
import AgentGateway.Proofs.Ownership
/-!
Refusals leave the tasks alone. The operations of the store are taken apart into the changes that
they make one after the other, each of which would stay where a later one fails, and a request on
tasks that is refused is followed to the end of its step.
-/

namespace AgentGateway

open Json (Value)

/-- What operations on tasks change: the store, and the tokens that are signalled. -/
structure TaskTable where
  store : TaskStore
  signalled : List Token := []

/-- An operation that changes the tasks step by step; what it has changed stays where it fails. -/
abbrev InPlace := EStateM Fault TaskTable

namespace TaskTable

def find? (id : String) : InPlace (Option TaskEntry) := do
  return (← get).store.find? id

def put (id : String) (e : TaskEntry) : InPlace Unit :=
  modify fun b => { b with store := b.store.put id e }

def signalAll (ks : List Token) : InPlace Unit :=
  modify fun b => { b with signalled := ks ++ b.signalled }

def alter (id : String) (f : TaskEntry → TaskEntry) : InPlace Unit := do
  match ← find? id with
  | none => pure ()
  | some e => put id (f e)

def alterTask (id : String) (f : Task → Task) : InPlace Unit :=
  alter id fun e => { e with task := f e.task }

def ofExcept {α : Type} : Except Fault α → InPlace α
  | .ok a => pure a
  | .error f => throw f

def taskAt (id : String) : InPlace Task := do
  match ← find? id with
  | none => throw (.taskNotFound id)
  | some e => pure e.task

def create (p : TaskSendParams) (headers : List (String × String)) (token : Token)
    (timestamp : String) : InPlace Task := do
  let task := { Task.new p.id timestamp with sessionId := p.sessionId }
  let metadata ← ofExcept (TaskStore.metadataOf p.metadata headers)
  let task := { task with metadata, history := task.history ++ [p.message] }
  put p.id ⟨task, some token⟩
  return task

def resume (p : TaskSendParams) (token : Token) : InPlace Task := do
  let max := (← get).store.maxHistory
  alterTask p.id fun t => { t with history := t.history ++ [p.message] }
  alterTask p.id fun t => { t with history := TaskStore.trim max t.history }
  alterTask p.id fun t => { t with sessionId := p.sessionId <|> t.sessionId }
  alter p.id fun e => { e with token := some token }
  taskAt p.id

def send (p : TaskSendParams) (headers : List (String × String)) (token : Token)
    (timestamp : String) : InPlace Task := do
  match ← find? p.id with
  | none => create p headers token timestamp
  | some e =>
    if e.task.state.isTerminal then
      throw (.invalidRequest
        ("Task " ++ p.id ++ " is " ++ e.task.state.name ++ " and cannot be resumed"))
    else if e.token.isSome then
      throw (.invalidRequest ("Task " ++ p.id ++ " is already running"))
    else resume p token

def query (id : String) (historyLength : Option Nat) : InPlace Task := do
  match ← find? id with
  | none => throw (.taskNotFound id)
  | some e => return e.task.withHistoryLength historyLength

def cancel (id timestamp : String) : InPlace Task := do
  match ← find? id with
  | none => throw (.taskNotFound id)
  | some e =>
    if e.task.state.isTerminal then throw (.taskNotCancelable id)
    else
      signalAll e.token.toList
      alterTask id fun t => { t with status := ⟨.canceled, none, some timestamp⟩ }
      taskAt id

variable {α : Type} {b b' : TaskTable} {id timestamp : String} {e : TaskEntry} {f : Fault}

def settle (b : TaskTable) : Except Fault (α × TaskTable) → EStateM.Result Fault TaskTable α
  | .ok (a, b') => .ok a b'
  | .error f => .error f b

theorem settle_map_eq_error_iff {β : Type} {r : Except Fault β} {k : β → α × TaskTable} :
    settle b (r.map k) = .error f b' ↔ r = .error f ∧ b' = b := by
  cases r with
  | ok x => simp [settle, Except.map]
  | error f => simp [settle, Except.map, eq_comm]

theorem run_bind_ok {β : Type} {x : InPlace α} {f : α → InPlace β} {a : α}
    (h : x.run b = .ok a b') : (x >>= f).run b = (f a).run b' := by
  have h : x b = .ok a b' := h
  simp [EStateM.run, bind, EStateM.bind, h]

theorem run_find? : (find? id).run b = .ok (b.store.find? id) b := rfl

theorem run_alter {f : TaskEntry → TaskEntry} (he : b.store.find? id = some e) :
    (alter id f).run b = .ok () { b with store := b.store.put id (f e) } := by
  rw [alter, run_bind_ok run_find?, he]
  rfl

theorem run_alter_put {f : TaskEntry → TaskEntry} :
    (alter id f).run { b with store := b.store.put id e } =
      .ok () { b with store := b.store.put id (f e) } := by
  rw [run_alter TaskStore.find?_put_self, TaskStore.put_put]

theorem run_taskAt_put {b' : TaskTable} : (taskAt id).run { b' with store := b'.store.put id e } =
    .ok e.task { b' with store := b'.store.put id e } := by
  rw [taskAt, run_bind_ok run_find?, TaskStore.find?_put_self]
  rfl

variable {p : TaskSendParams} {headers : List (String × String)} {token : Token}

theorem run_resume (he : b.store.find? p.id = some e) : (resume p token).run b =
    let task := TaskStore.resume b.store.maxHistory p e.task
    .ok task { b with store := b.store.put p.id ⟨task, some token⟩ } := by
  have hget : (MonadState.get : InPlace TaskTable).run b = .ok b b := rfl
  rw [resume, run_bind_ok hget, alterTask, run_bind_ok (run_alter he), alterTask,
    run_bind_ok run_alter_put, alterTask, run_bind_ok run_alter_put, run_bind_ok run_alter_put]
  exact run_taskAt_put

theorem run_create : (create p headers token timestamp).run b = settle b
    ((TaskStore.create p headers timestamp).map fun task =>
      (task, { b with store := b.store.put p.id ⟨task, some token⟩ })) := by
  rw [create, TaskStore.create]
  cases TaskStore.metadataOf p.metadata headers with
  | error f => rfl
  | ok metadata => rfl

theorem run_send :
    (send p headers token timestamp).run b = settle b
      ((b.store.send p headers token timestamp).map fun x => (x.1, { b with store := x.2 })) := by
  rw [send, run_bind_ok run_find?, TaskStore.send]
  cases he : b.store.find? p.id with
  | none =>
      refine run_create.trans (congrArg (settle b) ?_)
      cases TaskStore.create p headers timestamp <;> rfl
  | some e =>
      dsimp only
      split
      · rfl
      · split
        · rfl
        · exact run_resume he

theorem run_query {historyLength : Option Nat} : (query id historyLength).run b =
    settle b ((b.store.get id historyLength).map fun task => (task, b)) := by
  rw [query, run_bind_ok run_find?, TaskStore.get]
  cases b.store.find? id <;> rfl

theorem run_cancel : (cancel id timestamp).run b = settle b
    ((b.store.cancel id timestamp).map fun (task, token, store) =>
      (task, ⟨store, token.toList ++ b.signalled⟩)) := by
  rw [cancel, run_bind_ok run_find?, TaskStore.cancel]
  cases he : b.store.find? id with
  | none => rfl
  | some e =>
      dsimp only
      split
      · rfl
      · have hsignal : (signalAll e.token.toList).run b =
            .ok () { b with signalled := e.token.toList ++ b.signalled } := rfl
        have halter : (alterTask id fun t =>
            { t with status := ⟨.canceled, none, some timestamp⟩ }).run
              { b with signalled := e.token.toList ++ b.signalled } = _ := run_alter he
        rw [run_bind_ok hsignal, run_bind_ok halter]
        exact run_taskAt_put

/-- The operations fail on the tasks, whichever they are, just where those of the store do, and
leave them as they were. -/
structure KeepsOnFailure (b : TaskTable) : Prop where
  sending : ∀ p headers token timestamp f b',
    (send p headers token timestamp).run b = .error f b' ↔
      b.store.send p headers token timestamp = .error f ∧ b' = b
  querying : ∀ id historyLength f b', (query id historyLength).run b = .error f b' ↔
    b.store.get id historyLength = .error f ∧ b' = b
  canceling : ∀ id timestamp f b', (cancel id timestamp).run b = .error f b' ↔
    b.store.cancel id timestamp = .error f ∧ b' = b

theorem keepsOnFailure (b : TaskTable) : b.KeepsOnFailure where
  sending p headers token timestamp f b' := by rw [run_send, settle_map_eq_error_iff]
  querying id historyLength f b' := by rw [run_query, settle_map_eq_error_iff]
  canceling id timestamp f b' := by rw [run_cancel, settle_map_eq_error_iff]

end TaskTable

namespace Gateway

variable {g g' : Gateway} {id : String} {m : Message} {request : RequestId} {method : Method}

theorem dispatchTask_fault {r : SessionRef} {s : Session} {params : Option Value} {f : Fault}
    (h : g.dispatchTask method r s request params = (.fault f, g')) : g' = g := by
  unfold dispatchTask answer orElse at h
  split at h
  · split at h <;> cases h
    rfl
  · split at h <;> cases h
    rfl
  · exact (congrArg Prod.snd h).symm
  · split at h <;> cases h
    rfl

theorem inner_of_failure {error : RpcError} (hm : m.method = some method.name)
    (hid : m.id = some request) (htasks : method.onTasks = true)
    (h : (g.handle id m).1 = .done (some (.failure (some request) error))) :
    (g.handle id m).2.inner = g.inner := by
  rcases refused_or_offered g id hm hid htasks with ⟨-, -, hsame⟩ | ⟨hoffered, r, s, hget, hv⟩
  · exact hsame
  obtain ⟨sessions, s', -, hh⟩ := handle_onTasks hget hv hm hid htasks hoffered
  rw [hh] at h ⊢
  obtain ⟨d, g', hd⟩ : ∃ d g', { g with sessions }.dispatchTask method r s' request m.params =
      (d, g') := ⟨_, _, rfl⟩
  rw [hd] at h ⊢
  cases d with
  | result v => exact absurd (Option.some.inj (Handling.done.inj h)) success_ne_failure
  | fault f =>
      rw [dispatchTask_fault hd]
      rfl
  | running | streaming | calling => cases h

end Gateway

open Gateway

theorem Moment.idles_of_refusal {g g' : Gateway} {a : Act} {q : ProcessId} {id : String}
    {m : Message} {request : RequestId} {method : Method} {error : RpcError} (hn : g.Numbered)
    (hstep : g.perform a = some g') (hq : Moment.taken? q ⟨g, a, g'⟩ = some (id, m))
    (hm : m.method = some method.name) (hid : m.id = some request)
    (htasks : method.onTasks = true)
    (hreturned : Moment.returned? q ⟨g, a, g'⟩ =
      some (some (.failure (some request) error))) : Moment.Idles ⟨g, a, g'⟩ := by
  obtain ⟨-, hreply⟩ := Moment.of_taking hn hstep hq
  have hdone := Handling.eq_done_of_reply? (hreply.symm.trans hreturned)
  exact Moment.idles_of_inner hstep hq hdone (inner_of_failure hm hid htasks hdone)

/-- What is refused on tasks changes none. An operation on the tasks, whichever they are, that fails
leaves the store and the tokens alone, however much of it has been done before it fails. So does a
request on tasks that is answered with a failure when it is taken up, and all work goes on. -/
theorem refused_untouched {g₀ g : Gateway} {ms : List Moment} (h₀ : g₀.IsNew) (hr : Run g₀ ms g) :
    (∀ b : TaskTable, b.KeepsOnFailure) ∧
      ∀ a g' q id (m : Message) (request : RequestId) (method : Method) error,
        g.perform a = some g' → Moment.taken? q ⟨g, a, g'⟩ = some (id, m) →
        m.method = some method.name → m.id = some request → method.onTasks = true →
        Moment.returned? q ⟨g, a, g'⟩ = some (some (.failure (some request) error)) →
        Moment.Idles ⟨g, a, g'⟩ := by
  obtain ⟨ds, hh⟩ := hr.history h₀
  refine ⟨TaskTable.keepsOnFailure, ?_⟩
  intro a g' q id m request method error hstep hq hm hid htasks hreturned
  exact Moment.idles_of_refusal hh.numbered hstep hq hm hid htasks hreturned

def Act.canceling (n : Nat) : Act :=
  .submit "a" (.request (.number n) "tasks/cancel" (some (.ofFields [("id", .string "t")])))

theorem refused_untouched_terminal : ∃ (ms : List Moment) (g g' : Gateway) (error : RpcError),
    Run (Gateway.new {} []) ms g ∧ g.perform (.control 3) = some g' ∧
    Moment.returned? 3 ⟨g, .control 3, g'⟩ = some (some (.failure (some (.number 3)) error)) ∧
    Moment.Idles ⟨g, .control 3, g'⟩ := by
  obtain ⟨ms, g, hr, -, h⟩ := Run.exists_of_replay
    (Act.subscribing "wait(1s)" ++ [.canceling 2, .control 2, .canceling 3]) (Gateway.new {} [])
    (fun _ g => (g.perform (.control 3)).any fun g' =>
      ((Moment.taken? 3 ⟨g, .control 3, g'⟩).any fun x =>
        x.2.method = some Method.tasksCancel.name ∧ x.2.id = some (.number 3)) ∧
      (Moment.returned? 3 ⟨g, .control 3, g'⟩).any fun o => o.any fun reply =>
        reply.error.any fun error => reply = .failure (some (.number 3)) error)
    (by decide +kernel)
  simp only [Option.any_eq_true, decide_eq_true_eq] at h
  obtain ⟨g', hstep, ⟨⟨id, m⟩, htaken, hm, hid⟩, o, hreturned, reply, rfl, error, -, rfl⟩ := h
  obtain ⟨-, hrefused⟩ := refused_untouched ⟨{}, [], 0, rfl⟩ hr
  exact ⟨ms, g, g', error, hr, hstep, hreturned, hrefused _ g' 3 id m (.number 3) .tasksCancel error
    hstep htaken hm hid rfl hreturned⟩

end AgentGateway
