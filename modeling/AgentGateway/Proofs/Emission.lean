import AgentGateway.Proofs.Artifacts
import AgentGateway.Proofs.Producing

namespace AgentGateway

namespace Update

def untimed : Update → Update
  | .status e => .status { e with status := { e.status with timestamp := none } }
  | u => u

def state? : Update → Option TaskState
  | .status e => some e.status.state
  | .artifact _ => none
  | .error _ => some .failed

def chunk? : Update → Option Artifact
  | .artifact e => some e.artifact
  | _ => none

variable {u : Update} {timestamp : String}

@[simp] theorem untimed_stamped : (u.stamped timestamp).untimed = u.untimed := by cases u <;> rfl

@[simp] theorem state?_untimed : u.untimed.state? = u.state? := by cases u <;> rfl

@[simp] theorem chunk?_untimed : u.untimed.chunk? = u.chunk? := by cases u <;> rfl

@[simp] theorem isFinal_untimed : u.untimed.isFinal = u.isFinal := by cases u <;> rfl

end Update

def Ending.state : Ending → TaskState
  | .reached .completed => .completed
  | .reached .inputRequired => .inputRequired
  | .failed .cancelled | .failed .abandoned => .canceled
  | .failed _ => .failed

def chunksOf (us : List Update) : List Artifact := us.filterMap Update.chunk?

def stateAfter (us : List Update) (s : TaskState) : TaskState :=
  us.foldl (fun s u => u.state?.getD s) s

def Action.updates (id : String) : Action → List Update
  | .emit u => [u.untimed]
  | .chunks index next count =>
    (List.range' next (count - next)).map fun n =>
      .artifact ⟨id, Producer.chunk index n count⟩
  | _ => []

def updatesOf (id : String) (actions : List Action) : List Update :=
  actions.flatMap (Action.updates id)

namespace Plan

def updates (id : String) (p : Plan) : List Update := updatesOf id p.actions

/-- A plan emits artifacts, and then one update that tells of its ending. -/
structure Rounds (id : String) (p : Plan) (artifacts : List Artifact) (last : Update) : Prop where
  updates : p.updates id = artifacts.map (fun a => .artifact ⟨id, a⟩) ++ [last]
  orderly : Orderly artifacts
  final : last.isFinal = true
  state : last.state? = some p.ending.state
  asking : p.ending = .reached .inputRequired → artifacts = []
  uncanceled : p.ending.state ≠ .canceled

variable {id name : String} {p : Plan} {d : Draft} {task : Task} {trigger : TaskMessage}

theorem updatesOf_append {as bs : List Action} :
    updatesOf id (as ++ bs) = updatesOf id as ++ updatesOf id bs :=
  List.flatMap_append

theorem updates_after {actions : List Action} :
    (p.after actions).updates id = updatesOf id actions ++ p.updates id := by
  simp [updates, updatesOf, after]

theorem Rounds.after {artifacts : List Artifact} {last : Update} {actions : List Action}
    (h : p.Rounds id artifacts last) (ha : updatesOf id actions = []) :
    (p.after actions).Rounds id artifacts last where
  updates := by rw [updates_after, ha, List.nil_append, h.updates]
  orderly := h.orderly
  final := h.final
  state := h.state
  asking := h.asking
  uncanceled := h.uncanceled

theorem updatesOf_pauses : updatesOf id d.pauses = [] := by
  unfold Draft.pauses
  cases d.delay <;> rfl

theorem rounds_failing {reason : String} : ∃ last, (failing id reason).Rounds id [] last :=
  ⟨_, rfl, .nil, rfl, rfl, by simp, by simp [failing, Ending.state]⟩

theorem rounds_asking {prompt : String} : ∃ last, (asking id prompt).Rounds id [] last :=
  ⟨_, rfl, .nil, rfl, rfl, by simp, by simp [asking, Ending.state]⟩

theorem rounds_refusing {code : Int} : ∃ last, (refusing code).Rounds id [] last :=
  ⟨_, rfl, .nil, rfl, rfl, by simp, by simp [refusing, Ending.state]⟩

theorem orderly_stream {index count n : Nat} :
    Orderly ((List.range' 0 n).map fun n => Producer.chunk index n count) := by
  induction n with
  | zero => exact .nil
  | succ n ih =>
      rw [List.range'_1_concat, List.map_append]
      refine .snoc ih (fun h => ?_) rfl
      have hn : 0 < n := by simpa [Producer.chunk] using h
      simp only [List.mem_map]
      exact ⟨Producer.chunk index 0 count, ⟨0, by simpa using hn, rfl⟩, rfl⟩

theorem rounds_streaming {index count : Nat} :
    ∃ artifacts last, (streaming id index count).Rounds id artifacts last := by
  refine ⟨(List.range' 0 count).map fun n => Producer.chunk index n count,
    statusUpdate id .completed none true, ?_, orderly_stream, rfl, rfl, by simp [streaming],
    by simp [streaming, Ending.state]⟩
  simp [updates, updatesOf, streaming, Action.updates, completedUpdate, Function.comp_def]
  rfl

def Whole (artifacts : List Artifact) : Prop :=
  ∀ a ∈ artifacts, a.append = false ∧ a.parts.length = 1

theorem Whole.orderly {artifacts : List Artifact} (h : Whole artifacts) : Orderly artifacts := by
  induction artifacts using List.reverseRecOn with
  | nil => exact .nil
  | append_singleton artifacts a ih =>
      have ha := h a (by simp)
      exact .snoc (ih fun b hb => h b (by simp [hb])) (by simp [ha.1]) ha.2

theorem Whole.keep (h : Whole d.kept) {part : Part} : Whole (d.keep name part).kept := by
  intro a ha
  rcases List.mem_append.mp ha with ha | ha
  · exact h a ha
  · obtain rfl := List.mem_singleton.mp ha
    exact ⟨rfl, rfl⟩

theorem rounds_ofCommands (task : Task) (trigger : TaskMessage) (cs : List Command)
    (h : Whole d.kept) :
    ∃ artifacts last, (ofCommands task trigger cs d).Rounds task.id artifacts last := by
  induction cs generalizing d with
  | nil =>
      have hkept : Whole
          (if d.kept.isEmpty then [defaultArtifact trigger d.nextIndex] else d.kept) := by
        split
        · intro a ha
          obtain rfl := List.mem_singleton.mp ha
          exact ⟨rfl, rfl⟩
        · exact h
      rw [ofCommands]
      generalize (if d.kept.isEmpty then [defaultArtifact trigger d.nextIndex] else d.kept) = kept
        at hkept
      refine ⟨kept, statusUpdate task.id .completed none true, ?_, hkept.orderly, rfl, rfl,
        by simp, by simp [Ending.state]⟩
      have hkeep : updatesOf task.id (kept.map fun a => .emit (.artifact ⟨task.id, a⟩)) =
          kept.map fun a => .artifact ⟨task.id, a⟩ := by
        rw [updatesOf, List.flatMap_map]
        exact (List.map_eq_flatMap ..).symm
      rw [updates, updatesOf_append, updatesOf_append, updatesOf_pauses, hkeep, List.nil_append]
      rfl
  | cons c cs ih =>
      have hnext (d : Draft) (h : Whole d.kept) : ∃ artifacts last,
          ((ofCommands task trigger cs d).after [.check]).Rounds task.id artifacts last := by
        obtain ⟨artifacts, last, hr⟩ := ih h
        exact ⟨artifacts, last, hr.after rfl⟩
      have hcheck : updatesOf task.id (.check :: d.pauses) = [] := updatesOf_pauses
      have hwrap {p : Plan} (hp : ∃ artifacts last, p.Rounds task.id artifacts last) :
          ∃ artifacts last, (p.after (.check :: d.pauses)).Rounds task.id artifacts last := by
        obtain ⟨artifacts, last, hr⟩ := hp
        exact ⟨artifacts, last, hr.after hcheck⟩
      cases c with
      | wait ms => exact hwrap (hnext { d with delay := some (Nanos.ofMillis ms) } h)
      | respond kind payload =>
          cases hpart : partOf kind payload with
          | ok part =>
              rw [ofCommands, hpart]
              exact hwrap (hnext (d.keep "response" part) h.keep)
          | error reason =>
              rw [ofCommands, hpart]
              exact hwrap ⟨_, rounds_failing⟩
      | ask prompt => exact hwrap ⟨_, rounds_asking⟩
      | stream count => exact hwrap rounds_streaming
      | error outcome =>
          cases outcome with
          | code n => exact hwrap ⟨_, rounds_refusing⟩
          | fail => exact hwrap ⟨_, rounds_failing⟩
      | getHeaders =>
          cases hheaders : task.metadata.headers with
          | some headers =>
              rw [ofCommands, hheaders]
              exact hwrap (hnext (d.keep "headers" (headersPart headers)) h.keep)
          | none =>
              rw [ofCommands, hheaders]
              exact hwrap ⟨_, rounds_failing⟩
      | unknown name => exact hwrap (hnext { d with delay := none } h)

theorem rounds_ofTask (task : Task) : ∃ (p : Plan) (artifacts : List Artifact) (last : Update),
    p.Rounds task.id artifacts last ∧ (ofTask task).ending = p.ending ∧
    (ofTask task).updates task.id =
      statusUpdate task.id .working (some (.agentText "Parsing task commands")) false ::
        p.updates task.id := by
  unfold ofTask
  cases task.history.getLast? with
  | none =>
      obtain ⟨last, hr⟩ : ∃ last,
        (failing task.id "task has no messages to execute").Rounds task.id [] last :=
          rounds_failing
      exact ⟨_, _, last, hr, rfl, rfl⟩
  | some trigger =>
      have hempty : Whole { nextIndex := task.nextArtifactIndex : Draft }.kept := by
        intro a ha
        cases ha
      obtain ⟨artifacts, last, hr⟩ :=
        rounds_ofCommands task trigger (Command.ofMessage trigger) hempty
      exact ⟨_, artifacts, last, hr, rfl, rfl⟩

end Plan

structure Script (e : Ending) (us : List Update) (first : Update) (middle : List Update)
    (last : Update) : Prop where
  eq : us = first :: middle ++ [last]
  working : first.state? = some .working
  chunks : ∀ u ∈ middle, u.state? = none
  orderly : Orderly (chunksOf us)
  final : last.isFinal = true
  state : last.state? = some e.state
  asking : e = .reached .inputRequired → chunksOf us = []
  uncanceled : e.state ≠ .canceled

theorem script_ofTask (task : Task) : ∃ first middle last,
    Script (Plan.ofTask task).ending ((Plan.ofTask task).updates task.id) first middle last := by
  obtain ⟨p, artifacts, last, hr, he, hu⟩ := Plan.rounds_ofTask task
  have hlast : last.chunk? = none := by
    have hf := hr.final
    cases last <;> first | rfl | cases hf
  have hmap : (artifacts.map fun a => Update.artifact ⟨task.id, a⟩).filterMap Update.chunk? =
      artifacts := by
    rw [List.filterMap_map]
    exact List.filterMap_some
  have hchunks : chunksOf ((Plan.ofTask task).updates task.id) = artifacts := by
    rw [hu, hr.updates, chunksOf, List.filterMap_cons_none rfl, List.filterMap_append, hmap]
    simp [hlast]
  refine ⟨Plan.statusUpdate task.id .working (some (.agentText "Parsing task commands")) false,
    artifacts.map fun a => .artifact ⟨task.id, a⟩, last, ?_, rfl, ?_, ?_, hr.final, ?_, ?_,
    he ▸ hr.uncanceled⟩
  · rw [hu, hr.updates]
    rfl
  · simp [Update.state?]
  · rw [hchunks]
    exact hr.orderly
  · rw [he]
    exact hr.state
  · rw [he, hchunks]
    exact hr.asking

section Script

variable {e : Ending} {us vs middle : List Update} {first last : Update} {s : TaskState}

theorem chunksOf_untimed : chunksOf (vs.map Update.untimed) = chunksOf vs := by
  simp [chunksOf, List.filterMap_map]

theorem chunksOf_append {ws : List Update} : chunksOf (vs ++ ws) = chunksOf vs ++ chunksOf ws :=
  List.filterMap_append

theorem stateAfter_untimed : stateAfter (vs.map Update.untimed) s = stateAfter vs s := by
  simp [stateAfter, List.foldl_map]

theorem stateAfter_chunks (h : ∀ u ∈ vs, u.state? = none) : stateAfter vs s = s := by
  induction vs with
  | nil => rfl
  | cons u vs ih =>
      rw [stateAfter, List.foldl_cons, h u (by simp)]
      exact ih fun v hv => h v (by simp [hv])

namespace Script

theorem chunks_orderly (h : Script e us first middle last) (hp : vs.map Update.untimed <+: us) :
    Orderly (chunksOf vs) := by
  obtain ⟨rest, hrest⟩ := hp
  have ho := h.orderly
  rw [← hrest, chunksOf_append, chunksOf_untimed] at ho
  exact ho.of_append

theorem chunks_asking (h : Script e us first middle last) (hp : vs.map Update.untimed <+: us)
    (he : e = .reached .inputRequired) : chunksOf vs = [] := by
  obtain ⟨rest, hrest⟩ := hp
  have ha := h.asking he
  rw [← hrest, chunksOf_append, chunksOf_untimed] at ha
  exact (List.append_eq_nil_iff.mp ha).1

theorem state_before (h : Script e us first middle last) (hp : vs.map Update.untimed <+: us)
    (hne : vs.map Update.untimed ≠ us) :
    stateAfter vs s = if vs = [] then s else .working := by
  rw [h.eq] at hp hne
  have hbefore := (List.prefix_concat_iff.mp hp).resolve_left hne
  rcases List.prefix_cons_iff.mp hbefore with hnil | ⟨ws, hcons, hws⟩
  · simp [List.map_eq_nil_iff.mp hnil, stateAfter]
  · have hnone : ∀ u ∈ ws, u.state? = none := fun u hu => h.chunks u (hws.subset hu)
    have hvs : vs ≠ [] := by
      rintro rfl
      cases hcons
    rw [if_neg hvs, ← stateAfter_untimed, hcons, stateAfter, List.foldl_cons, h.working]
    exact stateAfter_chunks hnone

theorem state_after (h : Script e us first middle last) (heq : vs.map Update.untimed = us) :
    stateAfter vs s = e.state := by
  rw [← stateAfter_untimed, heq, h.eq, stateAfter, List.foldl_append, List.foldl_cons, h.state]
  rfl

theorem exists_last (h : Script e us first middle last) (heq : vs.map Update.untimed = us) :
    ∃ u, vs.getLast? = some u ∧ u.isFinal = true ∧ u.state? = some e.state := by
  have hl : (vs.map Update.untimed).getLast? = some last := by rw [heq, h.eq, List.getLast?_concat]
  rw [List.getLast?_map, Option.map_eq_some_iff] at hl
  obtain ⟨u, hu, hul⟩ := hl
  refine ⟨u, hu, ?_, ?_⟩
  · rw [← Update.isFinal_untimed, hul]
    exact h.final
  · rw [← Update.state?_untimed, hul]
    exact h.state

end Script

end Script

namespace Producer

def upcoming (id : String) (x : Producer) : List Update :=
  match x.stage with
  | .emitting u => u.untimed :: updatesOf id x.plan.actions
  | _ => updatesOf id x.plan.actions

variable {id : String} {x x' : Producer} {u : Option Update} {around : Surroundings}

theorem updatesOf_expand {delay : Nanos} {index next count : Nat} :
    updatesOf id (expand id delay index next count) =
      (Action.chunks index next count).updates id := by
  unfold expand
  by_cases h : next < count
  · have hcount : count - next = (count - (next + 1)) + 1 := by omega
    have hpause : updatesOf id (if 0 < next then [Action.pause delay] else []) = [] := by
      split <;> rfl
    rw [if_pos h, Plan.updatesOf_append, hpause, List.nil_append, Action.updates, hcount,
      List.range'_succ]
    simp [updatesOf, Action.updates, Update.untimed]
  · have hcount : count - next = 0 := by omega
    rw [if_neg h, Action.updates, hcount]
    rfl

inductive Leads (id : String) (around : Surroundings) (x : Producer) (u : Option Update)
    (x' : Producer) : Prop
  | onward : x'.ending? = none → x'.plan.ending = x.plan.ending →
      u.toList.map Update.untimed ++ x'.upcoming id = x.upcoming id → Leads id around x u x'
  | finished : x'.ending? = some x.plan.ending → u = none → x.upcoming id = [] →
      Leads id around x u x'
  | stopped {f : Failure} : x'.ending? = some (.failed f) → u = none → x.Heeds →
      (f = .cancelled ∧ around.cancelled = true ∨ f = .abandoned ∧ around.hasTaker = false) →
      Leads id around x u x'

theorem Moves.leads (h : Moves id around x u x') : Leads id around x u x' := by
  cases h with
  | halted hh hc => exact .stopped rfl rfl hh (.inl ⟨rfl, hc⟩)
  | deserted hs _ ht => exact .stopped rfl rfl (by simp [Heeds, hs]) (.inr ⟨rfl, ht⟩)
  | put hs _ _ _ => exact .onward rfl rfl (by simp [upcoming, hs])
  | woke hs _ _ => exact .onward rfl rfl (by simp [upcoming, hs])
  | finished hs ha => exact .finished rfl rfl (by simp [upcoming, hs, ha, updatesOf])
  | @unrolled index next count rest hs ha =>
      refine .onward rfl rfl ?_
      have hexpand : updatesOf id (expand id x.chunkDelay index next count ++ rest) =
          updatesOf id x.plan.actions := by
        rw [ha, Plan.updatesOf_append, updatesOf_expand]
        rfl
      simp [upcoming, goto, hs, hexpand]
  | checked hs ha _ | paused hs ha _ | offered hs ha _ =>
      exact .onward rfl rfl (by simp [upcoming, goto, hs, ha, updatesOf, Action.updates])

end Producer

end AgentGateway
