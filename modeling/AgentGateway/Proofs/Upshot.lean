import AgentGateway.Proofs.Meaning
import AgentGateway.Proofs.Progress
/-!
What comes of a message to a task, said of the task itself: the artifacts that it gains, the state
that it is left in, what is said about it, and the error that the sender may get in its place.
Folding all that an invocation emits comes to just that.
-/

namespace AgentGateway

open TaskStore (addChunk)

/-- What comes of the commands of a message that nothing stops. -/
inductive Upshot where
  | completed (artifacts : List Artifact)
  | asking (prompt : String)
  | failing (reason : String)
  | refusing (code : Int)
deriving DecidableEq

def Artifact.ofChunks (index n count : Nat) : Artifact where
  name := some "stream"
  parts := (List.range n).map fun k =>
    .text ("chunk " ++ toString (k + 1) ++ " of " ++ toString count)
  index
  lastChunk := n = count

def Command.upshot? (task : Task) (index : Nat) : Command → Option Upshot
  | .ask prompt => some (.asking prompt)
  | .stream count => some (.completed (if count = 0 then [] else [.ofChunks index count count]))
  | .error (.code n) => some (.refusing n)
  | .error .fail => some (.failing "task requested failure")
  | .respond .data payload =>
    match Json.parse payload with
    | .ok _ => none
    | .error e => some (.failing ("invalid JSON payload for data response: " ++ e.message))
  | .getHeaders =>
    if task.metadata.headers.isSome then none
    else some (.failing "task metadata carries no request headers")
  | _ => none

namespace Upshot

def artifacts : Upshot → List Artifact
  | .completed artifacts => artifacts
  | _ => []

def state : Upshot → TaskState
  | .completed _ => .completed
  | .asking _ => .inputRequired
  | .failing _ | .refusing _ => .failed

def remark : Upshot → Option TaskMessage
  | .completed _ => none
  | .asking text | .failing text => some (.agentText text)
  | .refusing code => some (.agentText ("Task requested error " ++ toString code))

/-- What the history gains. An error that has been asked for is not a turn of the conversation. -/
def turns : Upshot → List TaskMessage
  | .asking text | .failing text => [.agentText text]
  | _ => []

def error? : Upshot → Option RpcError
  | .failing reason => some { code := -32603, message := "Internal error: " ++ reason }
  | .refusing code => some { code, message := "Task requested error " ++ toString code }
  | _ => none

def ending : Upshot → Ending
  | .completed _ => .reached .completed
  | .asking _ => .reached .inputRequired
  | .failing reason => .failed (.internal reason)
  | .refusing code => .failed (.rpc (Plan.requestedError code))

def closing (id : String) : Upshot → Update
  | .refusing code => .error (Plan.requestedError code)
  | o => .status ⟨id, { state := o.state, message := o.remark }, true⟩

def wrapped : Upshot → Upshot
  | .completed artifacts => .completed (artifacts.map Artifact.wrapped)
  | o => o

def ofCommands (task : Task) (trigger : TaskMessage) (index : Nat) (cs : List Command) : Upshot :=
  let before := cs.takeWhile fun c => !c.halts task
  let answers := Meaning.answers task index cs
  let given := if answers.isEmpty then [Plan.defaultArtifact trigger index] else answers
  ((cs.find? (Command.halts task)).bind
    (Command.upshot? task (index + before.countP Command.isAnswer))).getD (.completed given)

def ofTask (task : Task) (trigger : TaskMessage) : Upshot :=
  (ofCommands task trigger task.nextArtifactIndex (Command.ofMessage trigger)).wrapped

variable {task : Task} {trigger : TaskMessage} {index : Nat} {c : Command} {cs : List Command}
  {o : Upshot} {t : Task} {timestamp id : String}

@[simp] theorem ending_wrapped : o.wrapped.ending = o.ending := by cases o <;> rfl

@[simp] theorem closing_wrapped : o.wrapped.closing id = o.closing id := by cases o <;> rfl

theorem conclude_eq (h : t.state = o.state) : TaskStore.conclude o.ending timestamp t = t := by
  cases o with
  | completed | failing | refusing => exact TaskStore.conclude_of_terminal (by rw [h]; rfl)
  | asking => simp [TaskStore.conclude, ending]

theorem length_upshot (h : c.upshot? task index = some o) : o.artifacts.length ≤ 1 := by
  cases c with
  | wait | unknown => cases h
  | ask =>
      cases h
      exact Nat.zero_le _
  | stream count =>
      cases h
      rw [artifacts]
      split <;> simp
  | error outcome => cases outcome <;> cases h <;> exact Nat.zero_le _
  | respond kind payload =>
      cases kind with
      | text | file => cases h
      | data =>
          rw [Command.upshot?] at h
          split at h <;> cases h
          exact Nat.zero_le _
  | getHeaders =>
      rw [Command.upshot?] at h
      split at h <;> cases h
      exact Nat.zero_le _

theorem indexes_answers : ((Meaning.answers task index cs).map Artifact.index).Sublist
    (List.range' index (cs.filter Command.isAnswer).length) := by
  have hsub {f : Command × Nat → Option Artifact} (hf : ∀ x a, f x = some a → a.index = x.2)
      (l : List (Command × Nat)) :
      ((l.filterMap f).map Artifact.index).Sublist (l.map Prod.snd) := by
    induction l with
    | nil => exact .slnil
    | cons x l ih =>
        cases ha : f x with
        | none =>
            rw [List.filterMap_cons_none ha]
            exact ih.cons _
        | some a =>
            rw [List.filterMap_cons_some ha, List.map_cons, List.map_cons, hf x a ha]
            exact ih.cons_cons _
  rw [← List.zipIdx_map_snd]
  exact hsub (fun _ _ ha => Meaning.index_answer ha) _

theorem nodup_ofCommands (hroom : index + cs.length ≤ Nat.pow 2 32) :
    ((ofCommands task trigger index cs).wrapped.artifacts.map Artifact.index).Nodup := by
  have hshort {as : List Artifact} (h : as.length ≤ 1) : (as.map Artifact.index).Nodup := by
    match as, h with
    | [], _ => exact List.nodup_nil
    | [a], _ => exact List.nodup_singleton _
  rw [ofCommands]
  cases hh : (cs.find? (Command.halts task)).bind _ with
  | some o =>
      obtain ⟨c, -, hc⟩ := Option.bind_eq_some_iff.mp hh
      have hlen := length_upshot hc
      cases o with
      | completed as => exact hshort (by simpa [wrapped, artifacts] using hlen)
      | asking | failing | refusing => exact List.nodup_nil
  | none =>
      rw [Option.getD_none, wrapped, artifacts]
      split
      · exact hshort (by simp)
      · have hsame : (Meaning.answers task index cs).map Artifact.wrapped =
            Meaning.answers task index cs := by
          refine (List.map_congr_left fun a ha => ?_).trans (List.map_id _)
          exact Artifact.wrapped_of_lt (Nat.lt_of_lt_of_le (Meaning.index_answers_lt ha) hroom)
        rw [hsame]
        exact indexes_answers.nodup List.nodup_range'

theorem collect_stream (index count : Nat) (l : List Artifact) :
    collect ((List.range count).map fun k => Producer.chunk index k count) l =
      collect (if count = 0 then [] else [.ofChunks index count count]) l := by
  suffices h : ∀ n, collect ((List.range (n + 1)).map fun k => Producer.chunk index k count) l =
      addChunk (.ofChunks index (n + 1) count) l by
    cases count with
    | zero => rfl
    | succ n => exact h n
  -- the first chunk begins the artifact, and each of the others goes on with it
  intro n
  induction n with
  | zero => rfl
  | succ n ih =>
      have happend : (Producer.chunk index (n + 1) count).append = true := by
        simp [Producer.chunk]
      have hindex : (Producer.chunk index (n + 1) count).index =
          (Artifact.ofChunks index (n + 1) count).index := rfl
      rw [List.range_succ, List.map_append, List.map_singleton, collect_snoc, ih,
        addChunk_addChunk happend hindex, Artifact.ofChunks, Artifact.ofChunks,
        List.range_succ (n := n + 1), List.map_append]
      rfl

end Upshot

structure Meaning.Yields (task : Task) (m : Meaning) (o : Upshot) : Prop where
  ending : m.ending = o.ending
  updates : ∃ chunks : List Artifact,
    m.updates = chunks.map (.artifact ⟨task.id, ·⟩) ++ [o.closing task.id] ∧
    ∀ l, collect (chunks.map Artifact.wrapped) l = collect o.wrapped.artifacts l

namespace Meaning

variable {task : Task} {trigger : TaskMessage} {index : Nat} {c : Command} {cs : List Command}

theorem yields_failure {reason : String} :
    (failure task reason).Yields task (.failing reason) := ⟨rfl, [], rfl, fun _ => rfl⟩

theorem yields_completion {as : List Artifact} :
    (completion task (as.map fun a => .artifact ⟨task.id, a⟩)).Yields task (.completed as) :=
  ⟨rfl, as, rfl, fun _ => rfl⟩

theorem yields_stream {count : Nat} :
    (completion task ((List.range count).map (chunk task index count))).Yields task
      (.completed (if count = 0 then [] else [.ofChunks index count count])) := by
  refine ⟨rfl, (List.range count).map fun k => Producer.chunk index k count, ?_, fun l => ?_⟩
  · rw [completion, List.map_map]
    refine congrArg (· ++ _) (List.map_congr_left fun k _ => ?_)
    simp [chunk, Producer.chunk, Nat.pos_iff_ne_zero]
  · rw [List.map_map]
    refine (Upshot.collect_stream (index % Nat.pow 2 32) count l).trans ?_
    rw [Upshot.wrapped, Upshot.artifacts]
    split <;> rfl

theorem yields_verdict :
    Option.Rel (Yields task) (c.verdict? task index) (c.upshot? task index) := by
  cases c with
  | wait | unknown => exact .none
  | ask => exact .some ⟨rfl, [], rfl, fun _ => rfl⟩
  | stream count => exact .some yields_stream
  | error outcome =>
      cases outcome with
      | code n => exact .some ⟨rfl, [], rfl, fun _ => rfl⟩
      | fail => exact .some yields_failure
  | respond kind payload =>
      cases kind with
      | text | file => exact .none
      | data =>
          rw [Command.verdict?, Command.upshot?]
          cases Json.parse payload with
          | ok v => exact .none
          | error e => exact .some yields_failure
  | getHeaders =>
      rw [Command.verdict?, Command.upshot?]
      split
      · exact .none
      · exact .some yields_failure

theorem yields_ofCommands :
    (ofCommands task trigger [] index cs).Yields task (.ofCommands task trigger index cs) := by
  rw [ofCommands, halted?, Upshot.ofCommands]
  cases cs.find? (Command.halts task) with
  | none => exact yields_completion
  | some c =>
      simp only [Option.bind_some]
      generalize hv : c.verdict? task _ = v
      generalize ho : c.upshot? task _ = o
      have hrel : Option.Rel (Yields task) v o := hv ▸ ho ▸ yields_verdict
      cases hrel with
      | none => exact yields_completion
      | some h => exact h

theorem Yields.wrapped {m : Meaning} {o : Upshot} (h : m.Yields task o) :
    m.wrapped.ending = o.wrapped.ending ∧ ∃ chunks : List Artifact,
      m.wrapped.updates = chunks.map (.artifact ⟨task.id, ·⟩) ++ [o.wrapped.closing task.id] ∧
      ∀ l, collect chunks l = collect o.wrapped.artifacts l := by
  obtain ⟨chunks, hupdates, hcollect⟩ := h.updates
  refine ⟨h.ending.trans Upshot.ending_wrapped.symm, chunks.map Artifact.wrapped, ?_, hcollect⟩
  have hclosing : (o.closing task.id).wrapped = o.closing task.id := by cases o <;> rfl
  rw [Meaning.wrapped, hupdates, List.map_append, List.map_map, List.map_singleton, hclosing,
    Upshot.closing_wrapped, List.map_map]
  rfl

theorem ending_ofTask :
    (ofTask task trigger).wrapped.ending = (Upshot.ofTask task trigger).ending :=
  yields_ofCommands.wrapped.1

theorem updates_ofTask (task : Task) (trigger : TaskMessage) : ∃ chunks : List Artifact,
    (ofTask task trigger).wrapped.updates =
      status task .working (some "Parsing task commands") false ::
        (chunks.map (.artifact ⟨task.id, ·⟩) ++ [(Upshot.ofTask task trigger).closing task.id]) ∧
    ∀ l, collect chunks l = collect (Upshot.ofTask task trigger).artifacts l := by
  have hyields : (ofCommands task trigger [] task.nextArtifactIndex
      (Command.ofMessage trigger)).Yields task _ := yields_ofCommands
  obtain ⟨-, chunks, hupdates, hcollect⟩ := hyields.wrapped
  exact ⟨chunks, congrArg _ hupdates, hcollect⟩

end Meaning

namespace Task

variable {max : Nat} {us : List Update} {chunks : List Artifact} {t : Task} {o : Upshot}
  {id : String}

theorem folding_untimed : t.folding max (us.map Update.untimed) = t.folding max us := by
  have hfold (t : Task) (u : Update) : (TaskStore.fold max "" u.untimed t).untimed =
      (TaskStore.fold max "" u t).untimed := by
    cases u with
    | artifact | error => rfl
    | status e =>
        simp only [Update.untimed, TaskStore.fold, TaskStore.withStatus]
        split
        · split <;> rfl
        · rfl
  simp only [folding, List.foldl_map, hfold]

theorem folding_artifacts : t.folding max (chunks.map (.artifact ⟨id, ·⟩)) =
    { t.untimed with artifacts := collect chunks t.artifacts } := by
  induction chunks using List.reverseRecOn with
  | nil => rfl
  | append_singleton chunks c ih =>
      rw [List.map_append, folding_append, ih, collect_snoc]
      rfl

theorem folding_working {text : String} :
    t.folding max (Meaning.status t .working (some text) false :: us) =
      Task.folding max us
        { t with status := { state := .working, message := some (.agentText text) } } := rfl

theorem fold_closing (h : t.history.length ≤ max) :
    (TaskStore.fold max "" (o.closing id) t).untimed = { t with
      status := { state := o.state, message := o.remark }
      history := TaskStore.trim max (t.history ++ o.turns) } := by
  cases o with
  | completed =>
      simp [TaskStore.fold, TaskStore.withStatus, Upshot.closing, Upshot.remark, Upshot.turns,
        TaskStore.trim_of_length_le h, untimed]
  | asking | failing => rfl
  | refusing =>
      simp [TaskStore.fold, Upshot.closing, Upshot.remark, Upshot.turns, Upshot.state,
        TaskStore.trim_of_length_le h, untimed, Plan.requestedError]

theorem folding_upshot {trigger : TaskMessage} (h : t.history.length ≤ max) :
    let o := Upshot.ofTask t trigger
    t.folding max (Meaning.ofTask t trigger).wrapped.updates = { t with
      status := { state := o.state, message := o.remark }
      history := TaskStore.trim max (t.history ++ o.turns)
      artifacts := collect o.artifacts t.artifacts } := by
  intro o
  obtain ⟨chunks, hupdates, hcollect⟩ := Meaning.updates_ofTask t trigger
  rw [hupdates, folding_working, folding_append, folding_artifacts, hcollect]
  exact fold_closing h

end Task

end AgentGateway
