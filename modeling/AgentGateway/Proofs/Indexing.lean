import AgentGateway.Proofs.Conclusions
import AgentGateway.Proofs.Lifecycle
/-!
At which indexes the artifacts of a task are. An invocation finds none, for a task with artifacts
has ended; it emits whole artifacts at the indexes from 0 on, or the chunks of a single stream, and
the store keeps what has been folded of them.
-/

namespace AgentGateway

open TaskStore (addChunk)

/-- That chunks are as an invocation emits them for a task without artifacts: whole artifacts that
are counted in 32 bits, or a stream from its first chunk on. -/
inductive Sequenced (chunks : List Artifact) : Prop
  | counted :
      chunks.map Artifact.index = (List.range chunks.length).map (· % Nat.pow 2 32) →
      Sequenced chunks
  | stream (index count n : Nat) :
      chunks = (List.range n).map (fun k => Producer.chunk index k count) → Sequenced chunks

/-- That a chunk goes on with an artifact, which gets its parts, and leaves the others alone. -/
def Artifact.Extends (c : Artifact) (stored extended : List Artifact) : Prop :=
  ∃ before a after, stored = before ++ a :: after ∧ a.index = c.index ∧
    extended = before ++ { a with parts := a.parts ++ c.parts, lastChunk := c.lastChunk } :: after

section Folding

variable {chunks l : List Artifact} {c : Artifact}

theorem length_addChunk : l.length ≤ (addChunk c l).length := by
  induction l with
  | nil => exact Nat.zero_le _
  | cons a l ih =>
      rw [addChunk]
      split
      · split <;> simp
      · simpa using ih

theorem length_collect : l.length ≤ (collect chunks l).length := by
  induction chunks generalizing l with
  | nil => exact Nat.le_refl _
  | cons c chunks ih => exact Nat.le_trans length_addChunk ih

theorem extends_addChunk (hc : c.append = true) (hi : c.index ∈ l.map Artifact.index) :
    c.Extends l (addChunk c l) := by
  induction l with
  | nil => cases hi
  | cons a l ih =>
      rw [addChunk]
      by_cases ha : a.index = c.index
      · rw [if_pos ha, if_pos hc]
        exact ⟨[], a, l, rfl, ha, rfl⟩
      · rw [List.map_cons, List.mem_cons] at hi
        obtain ⟨before, b, after, rfl, hb, hadd⟩ := ih (hi.resolve_left (Ne.symm ha))
        rw [if_neg ha, hadd]
        exact ⟨a :: before, b, after, rfl, hb, rfl⟩

theorem Orderly.mem_begun_before (h : Orderly (chunks ++ [c])) (hc : c.append = true) :
    c.index ∈ begun chunks := by
  have hmem := h.mem_begun (i := c.index) (by simp)
  simpa [begun, hc] using hmem

namespace Sequenced

theorem initial (h : Sequenced chunks) (hp : l <+: chunks) : Sequenced l := by
  obtain ⟨rest, rfl⟩ := hp
  cases h with
  | counted hindex =>
      refine .counted ?_
      have htake := congrArg (List.take l.length) hindex
      rw [List.map_append, ← List.map_take, List.take_range] at htake
      simpa using htake
  | stream index count n heq =>
      refine .stream index count l.length ?_
      have htake := congrArg (List.take l.length) heq
      have hlen := congrArg List.length heq
      rw [← List.map_take, List.take_range, List.take_left] at htake
      rw [List.length_append, List.length_map, List.length_range] at hlen
      rwa [Nat.min_eq_left (by omega)] at htake

theorem collect_counted (hindex : chunks.map Artifact.index =
      (List.range chunks.length).map (· % Nat.pow 2 32)) (hlen : chunks.length ≤ Nat.pow 2 32) :
    chunks.map Artifact.index = List.range chunks.length ∧ collect chunks [] = chunks := by
  have hrange : chunks.map Artifact.index = List.range chunks.length := by
    refine hindex.trans ((List.map_congr_left fun n hn => ?_).trans (List.map_id _))
    exact Nat.mod_eq_of_lt (Nat.lt_of_lt_of_le (List.mem_range.mp hn) hlen)
  exact ⟨hrange, collect_fresh (by rw [List.nil_append, hrange]; exact List.nodup_range)⟩

theorem pairwise_collect (h : Sequenced chunks)
    (hlen : (collect chunks []).length < Nat.pow 2 32) :
    (collect chunks []).Pairwise fun a b => a.index < b.index := by
  cases h with
  | counted hindex =>
      by_cases hshort : chunks.length ≤ Nat.pow 2 32
      · obtain ⟨hrange, hcollect⟩ := collect_counted hindex hshort
        rw [hcollect, ← List.pairwise_map, hrange]
        exact List.pairwise_lt_range
      · -- the first of them alone are too many
        exfalso
        have hsplit := List.take_append_drop (Nat.pow 2 32) chunks
        have hfirst : (chunks.take (Nat.pow 2 32)).length = Nat.pow 2 32 := by
          rw [List.length_take]
          omega
        have htake := congrArg (List.take (Nat.pow 2 32)) hindex
        rw [← List.map_take, ← List.map_take, List.take_range,
          Nat.min_eq_left (Nat.le_of_not_le hshort)] at htake
        obtain ⟨-, hcollect⟩ := collect_counted (hfirst.symm ▸ htake) (Nat.le_of_eq hfirst)
        rw [← hsplit, collect_append, hcollect] at hlen
        exact absurd (Nat.lt_of_le_of_lt length_collect hlen) (by omega)
  | stream index count n heq =>
      have hnodup : ((collect chunks []).map Artifact.index).Nodup := nodup_collect List.nodup_nil
      have hsame : ∀ i ∈ (collect chunks []).map Artifact.index, i = index := by
        intro i hi
        rw [mem_index_collect, heq] at hi
        obtain ⟨a, ha, rfl⟩ := List.mem_map.mp (hi.resolve_right (by simp))
        obtain ⟨k, -, rfl⟩ := List.mem_map.mp ha
        rfl
      generalize collect chunks [] = stored at hnodup hsame
      match stored with
      | [] => exact .nil
      | [a] => exact List.pairwise_singleton _ a
      | a :: b :: rest =>
          have hab := (hsame a.index (by simp)).trans (hsame b.index (by simp)).symm
          simp [hab] at hnodup

end Sequenced

end Folding

namespace Plan

structure Draft.Counted (d : Draft) : Prop where
  indexes : d.kept.map Artifact.index = (List.range d.kept.length).map (· % Nat.pow 2 32)
  next : d.nextIndex = d.kept.length % Nat.pow 2 32

variable {d : Draft} {name : String} {part : Part} {task : Task} {trigger : TaskMessage}
  {p : Plan} {id : String}

theorem Draft.Counted.keep (h : d.Counted) : (d.keep name part).Counted where
  indexes := by simp [Draft.keep, h.indexes, h.next, List.range_succ, Artifact.whole]
  next := by simp [Draft.keep, h.next]

theorem sequenced_nil : Sequenced [] := .counted rfl

theorem chunksOf_emitting {as : List Artifact} :
    chunksOf (updatesOf id (as.map fun a => .emit (.artifact ⟨id, a⟩))) = as := by
  induction as with
  | nil => rfl
  | cons a as ih => exact congrArg (a :: ·) ih

theorem sequenced_streaming {index count : Nat} :
    Sequenced (chunksOf ((streaming id index count).updates id)) := by
  refine .stream index count count ?_
  simp [updates, updatesOf, streaming, Action.updates, completedUpdate, statusUpdate, chunksOf,
    Function.comp_def, List.filterMap_map, Update.chunk?, Update.untimed, List.range_eq_range']

theorem sequenced_after {actions : List Action} (ha : updatesOf id actions = [])
    (h : Sequenced (chunksOf (p.updates id))) :
    Sequenced (chunksOf ((p.after actions).updates id)) := by
  rwa [updates_after, ha, List.nil_append]

theorem sequenced_given (h : d.Counted) : Sequenced
    (if d.kept.isEmpty then [defaultArtifact trigger d.nextIndex] else d.kept) := by
  split
  · rename_i hempty
    have hnil : d.kept = [] := by simpa using hempty
    refine .counted ?_
    simp [defaultArtifact, Artifact.whole, h.next, hnil]
  · exact .counted h.indexes

theorem sequenced_ofCommands (cs : List Command) (h : d.Counted) :
    Sequenced (chunksOf ((ofCommands task trigger cs d).updates task.id)) := by
  induction cs generalizing d with
  | nil =>
      have hgiven : Sequenced
          (if d.kept.isEmpty then [defaultArtifact trigger d.nextIndex] else d.kept) :=
        sequenced_given h
      rw [ofCommands]
      generalize (if d.kept.isEmpty then [defaultArtifact trigger d.nextIndex] else d.kept) = kept
        at hgiven
      rw [updates, updatesOf_append, updatesOf_append, updatesOf_pauses, chunksOf_append,
        List.nil_append, chunksOf_emitting]
      exact (List.append_nil kept).symm ▸ hgiven
  | cons c cs ih =>
      have hnext {d : Draft} (h : d.Counted) : Sequenced (chunksOf
          (((ofCommands task trigger cs d).after [.check]).updates task.id)) :=
        sequenced_after rfl (ih h)
      have hwrap {p : Plan} (hp : Sequenced (chunksOf (p.updates task.id))) :
          Sequenced (chunksOf ((p.after (.check :: d.pauses)).updates task.id)) :=
        sequenced_after updatesOf_pauses hp
      cases c with
      | wait ms =>
          let waiting : Draft := { d with delay := some (Nanos.ofMillis ms) }
          exact hwrap (hnext (d := waiting) ⟨h.indexes, h.next⟩)
      | unknown name => exact hwrap (hnext (d := { d with delay := none }) ⟨h.indexes, h.next⟩)
      | respond kind payload =>
          cases hpart : partOf kind payload with
          | ok part =>
              rw [ofCommands, hpart]
              exact hwrap (hnext h.keep)
          | error reason =>
              rw [ofCommands, hpart]
              exact hwrap sequenced_nil
      | getHeaders =>
          cases hheaders : task.metadata.headers with
          | some headers =>
              rw [ofCommands, hheaders]
              exact hwrap (hnext h.keep)
          | none =>
              rw [ofCommands, hheaders]
              exact hwrap sequenced_nil
      | ask prompt => exact hwrap sequenced_nil
      | stream count => exact hwrap sequenced_streaming
      | error outcome => cases outcome <;> exact hwrap sequenced_nil

theorem sequenced_ofTask (h : task.artifacts = []) :
    Sequenced (chunksOf ((ofTask task).updates task.id)) := by
  unfold ofTask
  cases task.history.getLast? with
  | none => exact sequenced_nil
  | some trigger =>
      refine sequenced_ofCommands (Command.ofMessage trigger) ⟨rfl, ?_⟩
      simp [Task.nextArtifactIndex, h]

end Plan

theorem TaskStore.artifactsOf_send {s s' : TaskStore} {p : TaskSendParams}
    {headers : List (String × String)} {k : Token} {timestamp : String} {task : Task}
    (h : s.send p headers k timestamp = .ok (task, s')) (id : String) :
    s'.artifactsOf id = s.artifactsOf id := by
  obtain ⟨hfind, hold⟩ := send_spec h
  rw [artifactsOf, hfind, artifactsOf]
  split
  · rename_i hid
    subst hid
    rcases hold with ⟨hnone, hc⟩ | ⟨e, he, -, -, rfl⟩
    · rw [hnone]
      exact (create_spec hc).2.2
    · rw [he]
      rfl
  · rfl

theorem TaskStore.artifactsOf_finish {s : TaskStore} {q timestamp : String} {ending : Ending}
    (id : String) : (s.finish q ending timestamp).2.artifactsOf id = s.artifactsOf id := by
  rw [artifactsOf, find?_finish, artifactsOf]
  split
  · rename_i hid
    subst hid
    cases s.find? id with
    | none => rfl
    | some e => exact artifacts_conclude
  · rfl

theorem TaskStore.artifactsOf_cancel {s s' : TaskStore} {q timestamp : String} {task : Task}
    {token : Option Token} (h : s.cancel q timestamp = .ok (task, token, s')) (id : String) :
    s'.artifactsOf id = s.artifactsOf id := by
  obtain ⟨e, he, -, -, hfind⟩ := cancel_spec h
  rw [artifactsOf, hfind, artifactsOf]
  split
  · rename_i hid
    rw [hid, he]
    rfl
  · rfl

theorem TaskStore.artifactsOf_update {s : TaskStore} (q : String) (u : Update) (timestamp : String)
    (id : String) : (s.update q u timestamp).artifactsOf id = s.artifactsOf id ∨
      q = id ∧ ∃ r c e, u = .artifact ⟨r, c⟩ ∧ s.find? q = some e ∧
        e.task.state.isTerminal = false ∧ (s.update q u timestamp).find? q =
          some ⟨{ e.task with artifacts := addChunk c e.task.artifacts }, e.token⟩ := by
  have hfind : (s.update q u timestamp).find? id = _ := find?_update
  rw [artifactsOf, artifactsOf]
  by_cases hid : id = q
  · subst hid
    rw [if_pos rfl] at hfind
    rw [hfind]
    cases he : s.find? id with
    | none => exact .inl rfl
    | some e =>
        by_cases hterm : e.task.state.isTerminal = true
        · exact .inl (by simp [TaskEntry.fold, hterm])
        · have hopen : e.task.state.isTerminal = false := by simpa using hterm
          cases u with
          | artifact x => exact .inr ⟨rfl, x.id, x.artifact, e, rfl, rfl, hopen, by
              simp [TaskEntry.fold, hopen, fold]⟩
          | status x | error x =>
              left
              simp only [Option.map_some, Option.elim_some, TaskEntry.fold, hopen]
              exact Task.artifacts_fold
  · rw [hfind, if_neg hid]
    exact .inl rfl

namespace Workshop

variable {w w' : Workshop} {ds : List Deed} {d : Deed} {p : ProcessId} {i : Invocation} {t₀ : Task}
  {folded : List Update} {e : TaskEntry} {c : Artifact} {id : String}

structure Folds (w : Workshop) (p : ProcessId) (i : Invocation) (c : Artifact) (e : TaskEntry)
    (w' : Workshop) : Prop where
  works : w.work p = some i
  queued : ∃ q rest, i.queue = .artifact ⟨q, c⟩ :: rest
  stored : w.store.find? i.taskId = some e
  opened : e.task.state.isTerminal = false
  folded : w'.store.find? i.taskId =
    some ⟨{ e.task with artifacts := addChunk c e.task.artifacts }, e.token⟩

theorem Step.artifacts (h : Step w d w') (id : String) :
    w'.store.artifactsOf id = w.store.artifactsOf id ∨
      ∃ p i c e, Folds w p i c e w' ∧ i.taskId = id := by
  cases h with
  | rest | watched _ _ | dismissed _ | produced _ _ _ _ | forwarded _ _ | waited _ _ _
  | drained _ _ _ _ => exact .inl rfl
  | halted _ | lost _ _ _ => exact .inl (congrArg (TaskStore.artifactsOf id) store_signal)
  | began _ _ hsend => exact .inl (TaskStore.artifactsOf_send hsend id)
  | concluded _ _ => exact .inl (TaskStore.artifactsOf_finish id)
  | cancelled hc => exact .inl (TaskStore.artifactsOf_cancel hc id)
  | @took p i u rest timestamp hi hc hq =>
      rcases TaskStore.artifactsOf_update (s := w.store) i.taskId u timestamp id with
        hsame | ⟨rfl, q, c, e, rfl, he, hopen, hfind⟩
      · exact .inl hsame
      · exact .inr ⟨p, i, c, e, ⟨hi, ⟨q, rest, hq⟩, he, hopen, hfind⟩, rfl⟩

theorem Progress.chunks (h : Progress ds w p i t₀ folded) :
    Sequenced (chunksOf (folded ++ i.queue)) ∧ Orderly (chunksOf (folded ++ i.queue)) := by
  have hprefix := h.follows.isPrefix
  rw [h.kept] at hprefix
  obtain ⟨first, middle, last, hscript⟩ := h.script
  refine ⟨(Plan.sequenced_ofTask h.bare).initial ?_, hscript.chunks_orderly hprefix⟩
  rw [← chunksOf_untimed]
  exact hprefix.filterMap _

theorem Folds.artifacts (h : Folds w p i c e w') (hp : Progress ds w p i t₀ folded) :
    e.token = some i.token ∧ e.task.artifacts = collect (chunksOf folded) [] := by
  obtain ⟨e', he', htok, hf⟩ := hp.stored
  cases h.stored.symm.trans he'
  have hfold := hf.resolve_right fun ⟨hcancel, _⟩ => by
    have hopen := h.opened
    rw [hcancel] at hopen
    cases hopen
  exact ⟨htok, by rw [(Folded.of_untimed hfold).artifacts, hp.bare]⟩

theorem Path.sequenced (h : Path ds w) (id : String) :
    ∃ chunks, Sequenced chunks ∧ w.store.artifactsOf id = collect chunks [] := by
  induction h with
  | start h =>
      exact ⟨[], .counted rfl, by
        simp [TaskStore.artifactsOf, TaskStore.find?, h.entries, collect]⟩
  | @snoc w d w' ds hpath hstep hfit ih =>
      rcases hstep.artifacts id with hsame | ⟨p, i, c, e, hfolds, rfl⟩
      · rw [hsame]
        exact ih
      · obtain ⟨t₀, folded, hp⟩ := hpath.kept.progress p i hfolds.works
        obtain ⟨q, rest, hq⟩ := hfolds.queued
        have hsplit : chunksOf (folded ++ i.queue) = chunksOf folded ++ [c] ++ chunksOf rest := by
          rw [hq, List.append_cons, chunksOf_append, chunksOf_append]
          rfl
        refine ⟨chunksOf folded ++ [c], hp.chunks.1.initial ⟨_, hsplit.symm⟩, ?_⟩
        rw [TaskStore.artifactsOf, hfolds.folded, collect_snoc, ← (hfolds.artifacts hp).2]
        rfl

end Workshop

def Moment.Folds (p : ProcessId) (i : Invocation) (c : Artifact) (e : TaskEntry) (m : Moment) :
    Prop :=
  m.before.invocation? p = some i ∧
    Workshop.Folds m.before.workshop p i.plain c e m.after.workshop

section Run

open Gateway

variable {g₀ g : Gateway} {ms before : List Moment} {m b : Moment} {p : ProcessId}
  {i : Invocation} {c : Artifact} {e : TaskEntry} {task : Task}

theorem Run.bare (h₀ : g₀.IsNew) (hr : Run g₀ ms g) (hb : b ∈ ms) (hs : b.Starts p i task) :
    task.artifacts = [] := by
  obtain ⟨before, after, rfl⟩ := List.append_of_mem hb
  obtain ⟨hrun, hstep, -⟩ := hr.split rfl
  obtain ⟨-, -, ds, folded, -, hp⟩ := (hrun.snoc hstep).stems h₀ hs hs.begun rfl
  exact hp.bare

theorem Run.folds (h₀ : g₀.IsNew) (hr : Run g₀ before m.before) (hm : m.Folds p i c e) :
    e.token = some i.token ∧ ∃ b ∈ before, ∃ j task, b.Starts p j task ∧ j.token = i.token ∧
      task.id = i.taskId ∧ (∀ a ∈ task.artifacts, a.index ≠ c.index) ∧
      (c.append = true →
        (∃ first ∈ chunksOf (before.flatMap (Moment.emitted i.token)),
          first.append = false ∧ first.index = c.index) ∧
        c.Extends e.task.artifacts (addChunk c e.task.artifacts)) := by
  obtain ⟨hi, hfolds⟩ := hm
  obtain ⟨past, b, between, j, task, rfl, hb, hk⟩ := hr.source h₀ hi
  obtain ⟨-, -, ds, folded, hh, hp⟩ := hr.stems h₀ hb hi hk
  obtain ⟨htok, hartifacts⟩ := hfolds.artifacts hp
  obtain ⟨q, rest, hq⟩ := hfolds.queued
  refine ⟨htok, b, by simp, j, task, hb, hk.symm, hp.task.symm, by simp [hp.bare], fun happ => ?_⟩
  have hemitted : chunksOf ((past ++ b :: between).flatMap (Moment.emitted i.token)) =
      chunksOf folded ++ c :: chunksOf rest := by
    have hkept : emittedIn ds i.token = folded ++ i.plain.queue := hp.kept
    rw [hh.emitted, hkept, hq, chunksOf_append]
    rfl
  -- a chunk that goes on with an artifact comes after one that begins it
  have horder : Orderly (chunksOf folded ++ [c]) := by
    have hall := hp.chunks.2
    rw [hq, List.append_cons, chunksOf_append, chunksOf_append] at hall
    exact hall.of_append
  obtain ⟨first, hfirst, hindex⟩ := List.mem_map.mp (horder.mem_begun_before happ)
  rw [List.mem_filter] at hfirst
  have hbegun : first ∈ chunksOf ((past ++ b :: between).flatMap (Moment.emitted i.token)) := by
    rw [hemitted]
    exact List.mem_append_left _ hfirst.1
  refine ⟨⟨first, hbegun, by simpa using hfirst.2, hindex⟩, ?_⟩
  rw [hartifacts]
  exact extends_addChunk happ
    (mem_index_collect.mpr (.inl (List.mem_map.mpr ⟨first, hfirst.1, hindex⟩)))

/-- The artifacts of a task are in the order of their indexes. Only an invocation of the task folds
chunks into them: what it has found it keeps, and it goes on only with what it has begun. -/
theorem artifacts_indexed (h₀ : g₀.IsNew) (hr : Run g₀ ms g) (id : String) :
    ((g.store.artifactsOf id).length < Nat.pow 2 32 →
      (g.store.artifactsOf id).Pairwise fun a b => a.index < b.index) ∧
    (∀ b ∈ ms, ∀ p i task, b.Starts p i task → task.id = id →
      task.artifacts <+: g.store.artifactsOf id) ∧
    ∀ before m after, ms = before ++ m :: after →
      (m.after.store.artifactsOf id = m.before.store.artifactsOf id ∨
        ∃ p i c e, m.Folds p i c e ∧ i.taskId = id) ∧
      ∀ p i c e, m.Folds p i c e → i.taskId = id → e.token = some i.token ∧
        ∃ b ∈ before, ∃ j task, b.Starts p j task ∧ j.token = i.token ∧ task.id = id ∧
          (∀ a ∈ task.artifacts, a.index ≠ c.index) ∧
          (c.append = true →
            (∃ first ∈ chunksOf (before.flatMap (Moment.emitted i.token)),
              first.append = false ∧ first.index = c.index) ∧
            c.Extends e.task.artifacts (addChunk c e.task.artifacts)) := by
  refine ⟨fun hlen => ?_, fun b hb p i task hs _ => ?_, fun before m after hms => ?_⟩
  · obtain ⟨ds, hh⟩ := hr.history h₀
    obtain ⟨chunks, hchunks, hstored⟩ := hh.path.sequenced id
    have hstored : g.store.artifactsOf id = collect chunks [] := hstored
    rw [hstored] at hlen ⊢
    exact hchunks.pairwise_collect hlen
  · rw [hr.bare h₀ hb hs]
    exact List.nil_prefix
  · obtain ⟨hrun, hstep, -⟩ := hr.split hms
    refine ⟨?_, fun p i c e hm hid => hid ▸ hrun.folds h₀ hm⟩
    obtain ⟨-, d, hw, -⟩ := simulated_perform (hrun.numbered h₀.numbered) hstep
    rcases hw.artifacts id with hsame | ⟨p, i, c, e, hfolds, hid⟩
    · exact .inl hsame
    · obtain ⟨i, hi, rfl⟩ := exists_of_work hfolds.works
      exact .inr ⟨p, i, c, e, ⟨hi, hfolds⟩, hid⟩

end Run

theorem artifacts_streamed : ∃ before m g p i c e, Run (Gateway.new {} []) (before ++ [m]) g ∧
    m.Folds p i c e ∧ i.taskId = "t" ∧ c.append = true ∧
    c.Extends e.task.artifacts (addChunk c e.task.artifacts) ∧
    (g.store.artifactsOf "t").length = 1 ∧
    (g.store.artifactsOf "t").Pairwise fun a b => a.index < b.index := by
  obtain ⟨ms, g, hr, -, h⟩ := Run.exists_of_replay
    ([[.openSession ["a"] "owner" .server {}, .sending (.number 1) "ask(\"more?\")", .control 0],
      List.replicate 6 (.produce 0), List.replicate 3 (.consume 0),
      [.control 0, .sending (.number 2) "stream(2)", .control 1],
      List.replicate 8 (.produce 1), [.tick (Nanos.ofMillis 100)],
      List.replicate 5 (.produce 1), List.replicate 3 (.consume 1)].flatten : List Act)
    (Gateway.new {} [])
    (fun ms g => (g.store.artifactsOf "t").length = 1 ∧ ms.getLast?.any fun m =>
      (m.before.invocation? 1).any fun i => i.taskId = "t" ∧
        (i.queue.head?.bind Update.chunk?).any fun c => c.append = true ∧
          (m.before.store.find? i.taskId).any fun e => e.task.state.isTerminal = false ∧
            m.after.store.find? i.taskId =
              some ⟨{ e.task with artifacts := addChunk c e.task.artifacts }, e.token⟩)
    (by decide +kernel)
  obtain ⟨hlength, h⟩ := of_decide_eq_true h
  simp only [Option.any_eq_true, decide_eq_true_eq] at h
  obtain ⟨m, hm, i, hi, hid, c, hc, happ, e, he, hopen, hafter⟩ := h
  obtain ⟨before, rfl⟩ := List.getLast?_eq_some_iff.mp hm
  obtain ⟨u, hu, hc⟩ := Option.bind_eq_some_iff.mp hc
  obtain ⟨rest, hq⟩ := List.head?_eq_some_iff.mp hu
  cases u with
  | status | error => cases hc
  | artifact x =>
      cases hc
      have hfolds : m.Folds 1 i x.artifact e :=
        ⟨hi, Gateway.work_eq hi, ⟨x.id, rest, hq⟩, he, hopen, hafter⟩
      obtain ⟨hpairwise, -, hmoments⟩ := artifacts_indexed ⟨{}, [], 0, rfl⟩ hr "t"
      obtain ⟨-, hall⟩ := hmoments before m [] (by simp)
      obtain ⟨-, -, -, -, -, -, -, -, -, hextends⟩ := hall 1 i x.artifact e hfolds hid
      exact ⟨before, m, g, 1, i, x.artifact, e, hr, hfolds, hid, happ, (hextends happ).2, hlength,
        hpairwise (by rw [hlength]; decide)⟩

end AgentGateway
