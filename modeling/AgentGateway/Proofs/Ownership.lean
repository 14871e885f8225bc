import AgentGateway.Proofs.Fulfilment
import AgentGateway.Proofs.Overtaking
/-!
Who works on a task. At most one invocation does, its token stands beside the task for as long as it
does, and only its own end takes the token away.
-/

namespace AgentGateway

open Gateway
open Json (Value)

namespace Gateway

variable {g g' : Gateway} {id taskId : String} {m : Message} {request : RequestId} {method : Method}
  {params : TaskSendParams} {e : TaskEntry} {p q : ProcessId} {x : Process} {i j : Invocation}

theorem dispatch_disabled {r : SessionRef} {s : Session} {value : Option Value}
    (htasks : method.onTasks = true) (hoffered : g.settings.tasksEnabled ≠ true) :
    g.dispatch method.name r s request value = (.fault (.methodNotFound method.name), g) := by
  have hname : Method.ofName? method.name = some method := by
    cases method <;> simp [Method.onTasks] at htasks <;> rfl
  simp [dispatch, hname, htasks, hoffered]

theorem refused_or_offered (g : Gateway) (id : String) (hm : m.method = some method.name)
    (hid : m.id = some request) (htasks : method.onTasks = true) :
    (∃ error, (g.handle id m).1 = .done (some (.failure (some request) error)) ∧
      (g.handle id m).2.inner = g.inner) ∨
    g.settings.tasksEnabled = true ∧
      ∃ r s, g.get id = .ok (r, s) ∧ (g.validate r s m).1 = .ok () := by
  cases hget : g.get id with
  | error f =>
      have hrequest : m.isRequest = true := by simp [Message.isRequest, hm, hid]
      refine .inl ⟨(Fault.invalidRequest f.message).toRpc, ?_, ?_⟩
      · simp [handle, hget, hrequest, hid]
      · simp [handle, hget]
  | ok x =>
      obtain ⟨r, s⟩ := x
      obtain ⟨s', hs'⟩ : ∃ s', g.validate r s m = ((g.validate r s m).1, g.setSession r s') :=
        ⟨_, rfl⟩
      cases hv : (g.validate r s m).1 with
      | error rejection =>
          rw [hv] at hs'
          refine .inl ⟨rejection.toFault.toRpc, ?_, ?_⟩
          · simp [handle, hget, hs', hid, reply]
          · simp only [handle, hget, hs']
            rfl
      | ok =>
          rw [hv] at hs'
          by_cases hoffered : g.settings.tasksEnabled = true
          · exact .inr ⟨hoffered, r, s, rfl, hv⟩
          · have hoffered : (g.setSession r s').settings.tasksEnabled ≠ true := hoffered
            have hh := handle_valid hget hs' hm hid
            rw [dispatch_disabled htasks hoffered] at hh
            rw [hh]
            exact .inl ⟨(Fault.methodNotFound method.name).toRpc, rfl, rfl⟩

theorem beginTask_busy {s : Session} {value : Option Value} (subscriber : Option Subscriber)
    (hp : decodeParams TaskSendParams.decode value = .ok params)
    (he : g.store.find? params.id = some e) (hbusy : e.token.isSome = true) :
    ∃ f, g.beginTask s value subscriber = .error f := by
  obtain ⟨f, hf⟩ : ∃ f, g.store.send params s.context g.nextToken g.timestamp = .error f := by
    simp only [TaskStore.send, he, hbusy]
    split
    · exact ⟨_, rfl⟩
    · exact ⟨_, rfl⟩
  have hf' : g.takeToken.2.store.send params s.context g.takeToken.1 g.takeToken.2.timestamp =
      .error f := hf
  refine ⟨f, ?_⟩
  simp only [beginTask, hp, bind, Except.bind, hf']

theorem refused_busy (id : String) (hsends : method = .tasksSend ∨ method = .tasksSendSubscribe)
    (hm : m.method = some method.name) (hid : m.id = some request)
    (hp : decodeParams TaskSendParams.decode m.params = .ok params)
    (he : g.store.find? params.id = some e) (hbusy : e.token.isSome = true) :
    ∃ error, (g.handle id m).1 = .done (some (.failure (some request) error)) ∧
      (g.handle id m).2.inner = g.inner := by
  have htasks : method.onTasks = true := by rcases hsends with rfl | rfl <;> rfl
  rcases refused_or_offered g id hm hid htasks with
    hrefused | ⟨hoffered, r, s, hget, hv⟩
  · exact hrefused
  obtain ⟨sessions, s', -, hh⟩ := handle_onTasks hget hv hm hid htasks hoffered
  have hbegin (subscriber : Option Subscriber) :=
    beginTask_busy (g := { g with sessions }) (s := s') subscriber hp he hbusy
  have hfault : ∃ f, { g with sessions }.dispatchTask method r s' request m.params =
      (.fault f, { g with sessions }) := by
    rcases hsends with rfl | rfl
    · obtain ⟨f, hf⟩ := hbegin none
      exact ⟨f, by simp only [dispatchTask, hf]⟩
    · obtain ⟨f, hf⟩ := hbegin (some ⟨r, request⟩)
      exact ⟨f, by simp only [dispatchTask, hf]⟩
  obtain ⟨f, hf⟩ := hfault
  rw [hf] at hh
  rw [hh]
  exact ⟨_, rfl, rfl⟩

theorem handle_anonymous (hid : m.id = none) : (g.handle id m).1 = .done none := by
  unfold handle
  cases hget : g.get id with
  | error f => simp [Message.isRequest, hid]
  | ok x =>
      obtain ⟨r, s⟩ := x
      obtain ⟨v, g', hv⟩ : ∃ v g', g.validate r s m = (v, g') := ⟨_, _, rfl⟩
      simp only [hv]
      cases v with
      | error rejection => simp [hid]
      | ok =>
          unfold handleValid
          rw [hid]
          cases m.method <;> rfl

theorem success_ne_failure {v : Value} {o : Option RequestId} {error : RpcError} :
    Message.success request v ≠ .failure o error := by
  intro h
  cases congrArg Message.error h

theorem acceptsCancel_of_success {v : Value} (hm : m.method = some Method.tasksCancel.name)
    (hp : decodeParams TaskIdParams.decode m.params = .ok ⟨taskId⟩)
    (h : (g.handle id m).1 = .done (some (.success request v))) :
    g.AcceptsCancel id m request taskId ∧
      ∃ e, g.store.find? taskId = some e ∧ e.task.state.isTerminal = false := by
  cases hid : m.id with
  | none => cases h.symm.trans (handle_anonymous hid)
  | some request' =>
      rcases refused_or_offered g id hm hid rfl with
        ⟨error, hrefused, -⟩ | ⟨hoffered, hget⟩
      · cases h.symm.trans hrefused
      have haccepts : g.AcceptsCancel id m request' taskId := ⟨hm, hid, hoffered, hp, hget⟩
      have hreply : g.cancelReply request' taskId = .success request v := by
        simpa using haccepts.handle.symm.trans h
      unfold cancelReply at hreply
      split at hreply
      · exact absurd hreply.symm success_ne_failure
      · rename_i e he
        split at hreply
        · exact absurd hreply.symm success_ne_failure
        · rename_i ht
          obtain rfl : request' = request := Option.some.inj (congrArg Message.id hreply)
          exact ⟨haccepts, e, he, by simpa using ht⟩

theorem AcceptsCancel.signals (h : g.AcceptsCancel id m request taskId) {k : Token}
    (he : g.store.find? taskId = some e) (ht : e.task.state.isTerminal = false)
    (hk : e.token = some k) :
    ∃ sessions store, (g.handle id m).2 = { ({ g with sessions }.signal k) with store } := by
  obtain ⟨r, s, hget, hvalid⟩ := h.admitted
  obtain ⟨sessions, s', -, hh⟩ := handle_onTasks hget hvalid h.named h.identified rfl h.offered
  refine ⟨sessions, g.store.put taskId (e.cancel g.timestamp), (congrArg Prod.snd hh).trans ?_⟩
  simp only [dispatchTask, cancelTask, h.decoded]
  simp [TaskStore.cancel, timestamp, bind, Except.bind, TaskEntry.cancel, he, ht, hk, orElse]

theorem of_reply {reply : Option Message} (hx : g.process? q = some x)
    (hin : x.incoming? = some (id, m)) (hstep : g.control? q = some g')
    (hdone : (g.handle id m).1 = .done reply)
    (hsame : ∀ k, (g.handle id m).2.process? k = g.process? k) :
    g'.store = (g.handle id m).2.store ∧ g'.signalled = (g.handle id m).2.signalled ∧
      ∀ k, g'.invocation? k = g.invocation? k := by
  obtain ⟨y, hy, rfl⟩ := of_incoming hx hin hstep
  refine ⟨rfl, rfl, fun k => ?_⟩
  have hyi : y.invocation? = none := by
    rw [hdone] at hy
    obtain rfl | ⟨id, rfl⟩ | ⟨id, inbound, rfl⟩ := Process.of_handling hy <;> rfl
  have hxi : x.invocation? = none := by
    unfold Process.incoming? at hin
    split at hin <;> first | rfl | cases hin
  simp only [invocation?, process?_setProcess, hsame, hx]
  split
  · rename_i hk
    simp [hk, hx, hxi, hyi]
  · rfl

end Gateway

/-- That a process alone works on a task, and that its token stands beside the task. -/
structure Gateway.Owns (p : ProcessId) (i : Invocation) (g : Gateway) : Prop where
  alone : ∀ q j, g.invocation? q = some j → j.taskId = i.taskId → q = p
  slot : ∃ e, g.store.find? i.taskId = some e ∧ e.token = some i.token
  watched : ∀ q x, g.process? q = some x → x.watches i.token = true → q = p

namespace Moment

structure Idles (m : Moment) : Prop where
  store : m.after.store = m.before.store
  signalled : m.after.signalled = m.before.signalled
  work : ∀ q, m.after.invocation? q = m.before.invocation? q

structure Stops (p : ProcessId) (i : Invocation) (m : Moment) : Prop where
  signalled : ∀ k, k ∈ m.after.signalled ↔ k = i.token ∨ k ∈ m.before.signalled
  work : ∀ q, m.after.invocation? q = m.before.invocation? q
  stopped : ∀ q j, m.after.invocation? q = some j →
    ((m.after.surroundings j).cancelled = true ↔
      q = p ∨ (m.before.surroundings j).cancelled = true)

/-- That an invocation is left to itself by those who send messages to its task, is what a request
to cancel the task stops, and keeps its place in the store when another one ends. -/
structure Respects (p : ProcessId) (i : Invocation) (m : Moment) : Prop where
  refused : ∀ q id msg request (method : Method) params, m.taken? q = some (id, msg) →
    method = .tasksSend ∨ method = .tasksSendSubscribe → msg.method = some method.name →
    msg.id = some request → decodeParams TaskSendParams.decode msg.params = .ok params →
    params.id = i.taskId →
      (∃ error, m.returned? q = some (some (.failure (some request) error))) ∧ m.Idles
  stopped : ∀ q id msg request v, m.taken? q = some (id, msg) →
    msg.method = some Method.tasksCancel.name →
    decodeParams TaskIdParams.decode msg.params = .ok ⟨i.taskId⟩ →
    m.returned? q = some (some (.success request v)) → m.Stops p i
  spared : ∀ q j ending, m.Concludes q j ending → q ≠ p →
    m.after.store.find? i.taskId = m.before.store.find? i.taskId

end Moment

theorem Process.of_watches {x : Process} {k : Token} (h : x.watches k = true) :
    x.ownToken? = some k ∨ ∃ j, x.invocation? = some j ∧ j.token = k := by
  unfold watches at h
  split at h
  · simp only [Bool.and_eq_true, decide_eq_true_eq] at h
    exact .inl (congrArg some h.1)
  · simp only [Bool.and_eq_true, decide_eq_true_eq] at h
    exact .inl (congrArg some h.1)
  · obtain ⟨j, hj, h⟩ := (Option.any_eq_true ..).mp h
    simp only [Bool.and_eq_true, decide_eq_true_eq] at h
    exact .inr ⟨j, hj, h.1⟩

section Sound

open Workshop

variable {g g' : Gateway} {a : Act} {p q : ProcessId} {i j : Invocation} {id : String} {m : Message}
  {request : RequestId}

theorem Gateway.Owns.of_sound (hs : g.workshop.Sound) (hi : g.invocation? p = some i) :
    g.Owns p i := by
  have hslot : g.workshop.slot i.taskId = some i.token := hs.work_slot p i.plain (work_eq hi)
  refine ⟨fun q j hj heq => ?_, Option.bind_eq_some_iff.mp hslot, fun q x hx hw => ?_⟩
  · by_contra hq
    exact (hs.other (work_eq hi) (work_eq hj) hq).2 heq
  · rcases Process.of_watches hw with hown | ⟨j, hj, htok⟩
    · exact absurd (by simp [workshop, hx, hown]) (hs.unwatched i.taskId i.token q hslot)
    · exact hs.apart q p j.plain i.plain (work_eq (by simp [invocation?, hx, hj])) (work_eq hi) htok

theorem Moment.idles_of_inner (hstep : g.perform a = some g')
    (hq : Moment.taken? q ⟨g, a, g'⟩ = some (id, m)) {reply : Option Message}
    (hdone : (g.handle id m).1 = .done reply) (hsame : (g.handle id m).2.inner = g.inner) :
    Moment.Idles ⟨g, a, g'⟩ := by
  obtain ⟨hact, hin⟩ := Moment.of_taken? hq
  obtain rfl : a = .control q := hact
  obtain ⟨x, hx, hin⟩ := Option.bind_eq_some_iff.mp hin
  obtain ⟨hstore, hsignalled, hwork⟩ := of_reply hx hin hstep hdone fun k => process?_of_inner hsame
  exact ⟨hstore.trans (store_of_inner hsame), hsignalled.trans (signalled_of_inner hsame), hwork⟩

theorem Moment.refused (hn : g.Numbered) (ho : g.Owns p i) (hstep : g.perform a = some g')
    (hq : Moment.taken? q ⟨g, a, g'⟩ = some (id, m)) {method : Method} {params : TaskSendParams}
    (hsends : method = .tasksSend ∨ method = .tasksSendSubscribe)
    (hm : m.method = some method.name) (hid : m.id = some request)
    (hp : decodeParams TaskSendParams.decode m.params = .ok params) (htask : params.id = i.taskId) :
    (∃ error, Moment.returned? q ⟨g, a, g'⟩ = some (some (.failure (some request) error))) ∧
      Moment.Idles ⟨g, a, g'⟩ := by
  obtain ⟨e, he, htok⟩ := ho.slot
  obtain ⟨error, hdone, hsame⟩ := refused_busy id hsends hm hid hp (htask ▸ he)
    (by rw [htok]; rfl)
  obtain ⟨-, hreturned⟩ := Moment.of_taking hn hstep hq
  exact ⟨⟨error, by rw [hreturned, hdone]; rfl⟩, Moment.idles_of_inner hstep hq hdone hsame⟩

theorem Moment.stops (hn : g.Numbered) (hs : g.workshop.Sound) (hi : g.invocation? p = some i)
    (hstep : g.perform a = some g') (hq : Moment.taken? q ⟨g, a, g'⟩ = some (id, m))
    (hm : m.method = some Method.tasksCancel.name)
    (hp : decodeParams TaskIdParams.decode m.params = .ok ⟨i.taskId⟩) {v : Value}
    (hreturned : Moment.returned? q ⟨g, a, g'⟩ = some (some (.success request v))) :
    Moment.Stops p i ⟨g, a, g'⟩ := by
  obtain ⟨-, hreply⟩ := Moment.of_taking hn hstep hq
  obtain ⟨hact, hin⟩ := Moment.of_taken? hq
  obtain rfl : a = .control q := hact
  obtain ⟨x, hx, hin⟩ := Option.bind_eq_some_iff.mp hin
  have hdone : (g.handle id m).1 = .done (some (.success request v)) :=
    Handling.eq_done_of_reply? (hreply.symm.trans hreturned)
  obtain ⟨haccepts, e, he, ht⟩ := acceptsCancel_of_success hm hp hdone
  obtain ⟨e', he', htok⟩ := (Owns.of_sound hs hi).slot
  cases he.symm.trans he'
  obtain ⟨sessions, store, hafter⟩ := haccepts.signals he ht htok
  have hprocess (k : ProcessId) : (g.handle id m).2.process? k = g.process? k := by
    rw [hafter]
    exact process?_signal (g := { g with sessions })
  obtain ⟨-, hsignalled, hwork⟩ := of_reply hx hin hstep hdone hprocess
  have htokens (k : Token) : k ∈ g'.signalled ↔ k = i.token ∨ k ∈ g.signalled := by
    have hsig : (g.handle id m).2.signalled = (g.workshop.signal i.token).signalled := by
      rw [hafter]
      exact congrArg Workshop.signalled (workshop_signal (g := { g with sessions }))
    rw [hsignalled, hsig, mem_signal]
    rfl
  refine ⟨htokens, hwork, fun k j hj => ?_⟩
  have hj : g.invocation? k = some j := (hwork k).symm.trans hj
  have hmine : j.token = i.token ↔ k = p := by
    constructor
    · exact fun heq => hs.apart k p _ _ (work_eq hj) (work_eq hi) heq
    · rintro rfl
      cases hj.symm.trans hi
      rfl
  simp [surroundings, isSignalled, htokens, hmine]

theorem Moment.spared (ho : g.Owns p i) (hstep : g.perform a = some g') {ending : Ending}
    (hc : Moment.Concludes q j ending ⟨g, a, g'⟩) (hq : q ≠ p) :
    g'.store.find? i.taskId = g.store.find? i.taskId := by
  obtain ⟨y, rfl, -⟩ := Gateway.concluded hstep hc
  have hne : i.taskId ≠ j.taskId := fun heq => hq (ho.alone q j hc.2.1 heq.symm)
  exact TaskStore.find?_finish.trans (if_neg hne)

end Sound

/-- Whoever works on a task does so alone: its token is the one beside the task, and nobody else
watches that. Meanwhile no message for the task is let in, a request that cancels the task stops
just this invocation, and the end of another one leaves the task as it is. -/
theorem task_owned {g₀ g : Gateway} {ms : List Moment} {p : ProcessId} {i : Invocation}
    (h₀ : g₀.IsNew) (hr : Run g₀ ms g) (hi : g.invocation? p = some i) :
    g.Owns p i ∧ ∀ a g', g.perform a = some g' → Moment.Respects p i ⟨g, a, g'⟩ := by
  obtain ⟨ds, hh⟩ := hr.history h₀
  have ho := Owns.of_sound hh.path.sound hi
  refine ⟨ho, fun a g' hstep => ⟨?_, ?_, ?_⟩⟩
  · intro q id msg request method params hq hsends hm hid hp htask
    exact Moment.refused hh.numbered ho hstep hq hsends hm hid hp htask
  · intro q id msg request v hq hm hp hreturned
    exact Moment.stops hh.numbered hh.path.sound hi hstep hq hm hp hreturned
  · intro q j ending hc hq
    exact Moment.spared ho hstep hc hq

/-- What has a subscription to a task at work, and another message for it and a request to cancel it
in line. -/
def Act.contending : List Act :=
  subscribing "wait(1s)" ++ [.sending (.number 2) "respond(text, \"hi\")",
    .submit "a" (.request (.number 3) "tasks/cancel" (some (.ofFields [("id", .string "t")])))]

theorem task_owned_contended : ∃ (ms : List Moment) (g g₂ g₃ : Gateway) (i : Invocation),
    Run (Gateway.new {} []) ms g ∧ g.invocation? 1 = some i ∧ g.Owns 1 i ∧
    g.perform (.control 2) = some g₂ ∧ g.perform (.control 3) = some g₃ ∧
    (∃ error, Moment.returned? 2 ⟨g, .control 2, g₂⟩ =
      some (some (.failure (some (.number 2)) error))) ∧
    Moment.Idles ⟨g, .control 2, g₂⟩ ∧ Moment.Stops 1 i ⟨g, .control 3, g₃⟩ := by
  obtain ⟨ms, g, hr, -, h⟩ := Run.exists_of_replay Act.contending (Gateway.new {} [])
    (fun _ g => (g.invocation? 1).any (fun i => i.taskId = "t") ∧
      ((g.perform (.control 2)).any fun g₂ => (Moment.taken? 2 ⟨g, .control 2, g₂⟩).any fun x =>
        x.2.method = some Method.tasksSend.name ∧ x.2.id = some (.number 2) ∧
          (decodeParams TaskSendParams.decode x.2.params).toOption.any (·.id = "t")) ∧
      ((g.perform (.control 3)).any fun g₃ => ((Moment.taken? 3 ⟨g, .control 3, g₃⟩).any fun x =>
        x.2.method = some Method.tasksCancel.name ∧
          (decodeParams TaskIdParams.decode x.2.params).toOption = some ⟨"t"⟩) ∧
        (Moment.returned? 3 ⟨g, .control 3, g₃⟩).any fun o => o.any fun reply =>
          reply.result.any fun v => reply = .success (.number 3) v))
    (by decide +kernel)
  simp only [Option.any_eq_true, decide_eq_true_eq] at h
  obtain ⟨⟨i, hi, htask⟩, ⟨g₂, hstep₂, ⟨id₂, m₂⟩, htaken₂, hm₂, hid₂, params, hp₂, hparams⟩, g₃,
    hstep₃, ⟨⟨id₃, m₃⟩, htaken₃, hm₃, hp₃⟩, o, hreturned, reply, rfl, v, -, hreply⟩ := h
  obtain ⟨ho, hrespects⟩ := task_owned ⟨{}, [], 0, rfl⟩ hr hi
  have hrefused := (hrespects _ g₂ hstep₂).refused 2 id₂ m₂ (.number 2) .tasksSend params htaken₂
    (.inl rfl) hm₂ hid₂ (eq_ok_of_toOption hp₂) (hparams.trans htask.symm)
  have hstops := (hrespects _ g₃ hstep₃).stopped 3 id₃ m₃ (.number 3) v htaken₃ hm₃
    (eq_ok_of_toOption (htask ▸ hp₃)) (hreply ▸ hreturned)
  exact ⟨ms, g, g₂, g₃, i, hr, hi, ho, hstep₂, hstep₃, hrefused.1, hrefused.2, hstops⟩

end AgentGateway
