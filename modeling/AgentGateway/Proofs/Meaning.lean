import AgentGateway.Proofs.Course
import Mathlib.Data.List.TakeWhile
/-!
What the commands of a message mean, said at once for all of them: the first command that halts is
alone to tell of the task, and where there is none every answer is given as an artifact. An
invocation that is left alone emits just that.
-/

namespace AgentGateway

/-- Updates without times, and the ending that they lead to. -/
structure Meaning where
  updates : List Update
  ending : Ending
deriving DecidableEq

namespace Meaning

variable (task : Task)

def status (state : TaskState) (text : Option String) (isFinal : Bool) : Update :=
  .status ⟨task.id, { state, message := text.map .agentText }, isFinal⟩

def chunk (index count k : Nat) : Update :=
  .artifact ⟨task.id, {
    name := some "stream"
    parts := [.text ("chunk " ++ toString (k + 1) ++ " of " ++ toString count)]
    index
    append := k ≠ 0
    lastChunk := k + 1 = count }⟩

def failure (reason : String) : Meaning :=
  ⟨[status task .failed (some reason) true], .failed (.internal reason)⟩

def completion (us : List Update) : Meaning :=
  ⟨us ++ [status task .completed none true], .reached .completed⟩

end Meaning

namespace Command

variable (task : Task) (index : Nat)

def isAnswer : Command → Bool
  | .respond _ _ | .getHeaders => true
  | _ => false

def answer? : Command → Option Artifact
  | .respond .text payload => some (.whole "response" index [.text payload])
  | .respond .file payload => some (.whole "response" index [.file {
      name := some "response.txt"
      mimeType := some "text/plain"
      bytes := some (String.ofList (Text.Base64.encode payload.toUTF8.toList)) }])
  | .respond .data payload =>
    (Json.parse payload).toOption.map fun v => .whole "response" index [.data v]
  | .getHeaders => task.metadata.headers.map fun headers =>
    .whole "headers" index [.data (.ofFields (headers.map fun h => (h.1, .string h.2)))]
  | _ => none

/-- What a command means that halts; a stream is at the index. -/
def verdict? : Command → Option Meaning
  | .ask prompt =>
    some ⟨[Meaning.status task .inputRequired (some prompt) true], .reached .inputRequired⟩
  | .stream count =>
    some (Meaning.completion task ((List.range count).map (Meaning.chunk task index count)))
  | .error (.code n) =>
    let e : RpcError := { code := n, message := "Task requested error " ++ toString n }
    some ⟨[.error e], .failed (.rpc e)⟩
  | .error .fail => some (Meaning.failure task "task requested failure")
  | .respond .data payload =>
    match Json.parse payload with
    | .ok _ => none
    | .error e =>
      some (Meaning.failure task ("invalid JSON payload for data response: " ++ e.message))
  | .getHeaders =>
    if task.metadata.headers.isSome then none
    else some (Meaning.failure task "task metadata carries no request headers")
  | _ => none

def halts (c : Command) : Bool := (c.verdict? task 0).isSome

end Command

namespace Meaning

def answers (task : Task) (index : Nat) (cs : List Command) : List Artifact :=
  ((cs.filter Command.isAnswer).zipIdx index).filterMap fun (c, i) => c.answer? task i

/-- The meaning of the first command that halts; a stream comes after the answers before it. -/
def halted? (task : Task) (index : Nat) (cs : List Command) : Option Meaning :=
  let before := cs.takeWhile fun c => !c.halts task
  (cs.find? (Command.halts task)).bind
    (Command.verdict? task (index + before.countP Command.isAnswer))

/-- What is told where no command halts; without any answer there is one by default. -/
def completed (task : Task) (trigger : TaskMessage) (index : Nat) (artifacts : List Artifact) :
    Meaning :=
  let given := if artifacts.isEmpty then [Plan.defaultArtifact trigger index] else artifacts
  completion task (given.map fun a => .artifact ⟨task.id, a⟩)

def ofCommands (task : Task) (trigger : TaskMessage) (kept : List Artifact) (index : Nat)
    (cs : List Command) : Meaning :=
  (halted? task index cs).getD (completed task trigger index (kept ++ answers task index cs))

def ofTask (task : Task) (trigger : TaskMessage) : Meaning :=
  let m := ofCommands task trigger [] task.nextArtifactIndex (Command.ofMessage trigger)
  { m with updates := status task .working (some "Parsing task commands") false :: m.updates }

variable {task : Task} {trigger : TaskMessage} {kept : List Artifact} {index : Nat} {c : Command}
  {cs : List Command} {a : Artifact} {m : Meaning}

theorem halts_of_verdict (h : c.verdict? task index = some m) : c.halts task = true := by
  unfold Command.halts
  cases c with
  | wait | unknown => cases h
  | ask | stream => rfl
  | error outcome => cases outcome <;> rfl
  | respond kind payload =>
      cases kind with
      | text | file => cases h
      | data =>
          rw [Command.verdict?] at h ⊢
          cases hv : Json.parse payload with
          | ok v => simp [hv] at h
          | error e => rfl
  | getHeaders =>
      rw [Command.verdict?] at h ⊢
      split at h
      · cases h
      · rename_i hheaders
        rw [if_neg hheaders]
        rfl

theorem not_halts_of_answer (h : c.answer? task index = some a) : c.halts task = false := by
  unfold Command.halts
  cases c with
  | wait | ask | stream | error | unknown => cases h
  | respond kind payload =>
      cases kind with
      | text | file => rfl
      | data =>
          rw [Command.answer?] at h
          rw [Command.verdict?]
          cases hv : Json.parse payload with
          | ok v => rfl
          | error e => simp [hv, Except.toOption] at h
  | getHeaders =>
      obtain ⟨headers, hheaders, -⟩ := Option.map_eq_some_iff.mp h
      simp [Command.verdict?, hheaders]

theorem isAnswer_of_answer (h : c.answer? task index = some a) : c.isAnswer = true := by
  cases c with
  | wait | ask | stream | error | unknown => cases h
  | respond | getHeaders => rfl

theorem ofCommands_halt (h : c.verdict? task index = some m) :
    ofCommands task trigger kept index (c :: cs) = m := by
  simp [ofCommands, halted?, halts_of_verdict h, h]

theorem ofCommands_skip (hh : c.halts task = false) (ha : c.isAnswer = false) :
    ofCommands task trigger kept index (c :: cs) = ofCommands task trigger kept index cs := by
  have hanswers : answers task index (c :: cs) = answers task index cs := by
    rw [answers, List.filter_cons_of_neg (by simp [ha]), answers]
  have hhalted : halted? task index (c :: cs) = halted? task index cs := by
    simp [halted?, hh, ha]
  rw [ofCommands, ofCommands, hanswers, hhalted]

theorem ofCommands_answer (h : c.answer? task index = some a) :
    ofCommands task trigger kept index (c :: cs) =
      ofCommands task trigger (kept ++ [a]) (index + 1) cs := by
  have hanswers : answers task index (c :: cs) = a :: answers task (index + 1) cs := by
    rw [answers, List.filter_cons_of_pos (isAnswer_of_answer h), List.zipIdx_cons]
    exact List.filterMap_cons_some h
  have hhalted : halted? task index (c :: cs) = halted? task (index + 1) cs := by
    rw [halted?, halted?, List.find?_cons_of_neg (by simp [not_halts_of_answer h]),
      List.takeWhile_cons_of_pos (by simp [not_halts_of_answer h]),
      List.countP_cons_of_pos (isAnswer_of_answer h), Nat.add_comm _ 1, Nat.add_assoc]
  have hcompleted : completed task trigger index (kept ++ a :: answers task (index + 1) cs) =
      completed task trigger (index + 1) (kept ++ [a] ++ answers task (index + 1) cs) := by
    simp [completed]
  rw [ofCommands, ofCommands, hanswers, hhalted, hcompleted]

end Meaning

def Artifact.wrapped (a : Artifact) : Artifact := { a with index := a.index % Nat.pow 2 32 }

theorem Artifact.wrapped_of_lt {a : Artifact} (h : a.index < Nat.pow 2 32) : a.wrapped = a := by
  rw [Artifact.wrapped, Nat.mod_eq_of_lt h]

def Update.wrapped : Update → Update
  | .artifact e => .artifact { e with artifact := e.artifact.wrapped }
  | u => u

namespace Meaning

def wrapped (m : Meaning) : Meaning := { m with updates := m.updates.map Update.wrapped }

def Below (n : Nat) (m : Meaning) : Prop := ∀ a ∈ chunksOf m.updates, a.index < n

variable {task : Task} {trigger : TaskMessage} {index n : Nat} {c : Command} {cs : List Command}
  {a : Artifact} {m : Meaning}

theorem Below.wrapped (h : m.Below (Nat.pow 2 32)) : m.wrapped = m := by
  have hsame : m.updates.map Update.wrapped = m.updates := by
    refine (List.map_congr_left fun u hu => ?_).trans (List.map_id _)
    cases u with
    | status e => rfl
    | error e => rfl
    | artifact e =>
        have hlt : e.artifact.index < Nat.pow 2 32 := h _ (List.mem_filterMap.mpr ⟨_, hu, rfl⟩)
        rw [Update.wrapped, Artifact.wrapped_of_lt hlt]
        rfl
  rw [Meaning.wrapped, hsame]

theorem index_answer (h : c.answer? task index = some a) : a.index = index := by
  cases c with
  | wait | ask | stream | error | unknown => cases h
  | respond kind payload =>
      cases kind with
      | text | file =>
          cases h
          rfl
      | data =>
          obtain ⟨v, -, rfl⟩ := Option.map_eq_some_iff.mp h
          rfl
  | getHeaders =>
      obtain ⟨headers, -, rfl⟩ := Option.map_eq_some_iff.mp h
      rfl

theorem index_answers_lt (h : a ∈ answers task index cs) : a.index < index + cs.length := by
  obtain ⟨⟨c, i⟩, hmem, ha⟩ := List.mem_filterMap.mp h
  have hlt := List.snd_lt_add_of_mem_zipIdx hmem
  have hle := List.length_filter_le Command.isAnswer cs
  rw [index_answer ha]
  omega

theorem below_verdict (h : c.verdict? task index = some m) (hlt : index < n) : m.Below n := by
  intro a ha
  cases c with
  | wait | unknown => cases h
  | ask =>
      cases h
      cases ha
  | stream count =>
      cases h
      obtain ⟨u, hu, hchunk⟩ := List.mem_filterMap.mp ha
      rcases List.mem_append.mp hu with hu | hu
      · obtain ⟨k, -, rfl⟩ := List.mem_map.mp hu
        cases hchunk
        exact hlt
      · obtain rfl := List.mem_singleton.mp hu
        cases hchunk
  | error outcome =>
      cases outcome <;> cases h <;> cases ha
  | respond kind payload =>
      cases kind with
      | text | file => cases h
      | data =>
          rw [Command.verdict?] at h
          split at h <;> cases h
          cases ha
  | getHeaders =>
      rw [Command.verdict?] at h
      split at h <;> cases h
      cases ha

theorem below_completed {artifacts : List Artifact} (h : ∀ a ∈ artifacts, a.index < n)
    (hlt : index < n) : (completed task trigger index artifacts).Below n := by
  intro a ha
  obtain ⟨u, hu, hchunk⟩ := List.mem_filterMap.mp ha
  rcases List.mem_append.mp hu with hu | hu
  · obtain ⟨b, hb, rfl⟩ := List.mem_map.mp hu
    cases hchunk
    split at hb
    · obtain rfl := List.mem_singleton.mp hb
      exact hlt
    · exact h _ hb
  · obtain rfl := List.mem_singleton.mp hu
    cases hchunk

theorem below_ofCommands (hroom : index + cs.length ≤ n) (hlt : index < n) :
    (ofCommands task trigger [] index cs).Below n := by
  rw [ofCommands]
  cases hh : halted? task index cs with
  | none =>
      refine below_completed (fun a ha => ?_) hlt
      exact Nat.lt_of_lt_of_le (index_answers_lt ha) hroom
  | some m =>
      obtain ⟨c, hc, hm⟩ := Option.bind_eq_some_iff.mp hh
      refine below_verdict hm ?_
      have hcount : (cs.takeWhile fun c => !c.halts task).countP Command.isAnswer ≤
          (cs.takeWhile fun c => !c.halts task).length := List.countP_le_length
      have hshort : (cs.takeWhile fun c => !c.halts task).length < cs.length := by
        by_contra hge
        have hall := List.takeWhile_eq_self_iff.mp
          ((List.takeWhile_prefix _).eq_of_length_le (Nat.not_lt.mp hge))
        have hopen := hall c (List.mem_of_find?_eq_some hc)
        rw [List.find?_some hc] at hopen
        cases hopen
      omega

end Meaning

structure Plan.Means (id : String) (p : Plan) (m : Meaning) : Prop where
  updates : p.updates id = m.updates
  ending : p.ending = m.ending

namespace Plan

variable {task : Task} {trigger : TaskMessage} {p : Plan} {m : Meaning} {d : Draft}

theorem Means.after {id : String} {actions : List Action} (h : p.Means id m)
    (ha : updatesOf id actions = []) : (p.after actions).Means id m :=
  ⟨by rw [updates_after, ha, List.nil_append, h.updates], h.ending⟩

theorem means_failing {reason : String} :
    (failing task.id reason).Means task.id (Meaning.failure task reason).wrapped := ⟨rfl, rfl⟩

theorem means_streaming {index count : Nat} :
    (streaming task.id (index % Nat.pow 2 32) count).Means task.id (Meaning.wrapped
      (.completion task ((List.range count).map (Meaning.chunk task index count)))) := by
  refine ⟨?_, rfl⟩
  rw [updates, streaming, updatesOf, List.flatMap_cons, Action.updates, List.range_eq_range',
    Meaning.wrapped, Meaning.completion, List.map_append, List.map_map]
  refine congrArg (· ++ _) (List.map_congr_left fun k _ => ?_)
  simp [Meaning.chunk, Producer.chunk, Update.wrapped, Artifact.wrapped, Nat.pos_iff_ne_zero]

theorem means_completed {index : Nat} {kept : List Artifact}
    (hd : d.nextIndex = index % Nat.pow 2 32) :
    let given := if (kept.map Artifact.wrapped).isEmpty then [defaultArtifact trigger d.nextIndex]
      else kept.map Artifact.wrapped
    Means task.id
      { actions := d.pauses ++ given.map (fun a => .emit (.artifact ⟨task.id, a⟩))
          ++ [completedUpdate task.id]
        ending := .reached .completed }
      (Meaning.completed task trigger index kept).wrapped := by
  intro given
  have hgiven : given =
      (if kept.isEmpty then [defaultArtifact trigger index] else kept).map Artifact.wrapped := by
    simp only [given, List.isEmpty_map, hd]
    split <;> rfl
  refine ⟨?_, rfl⟩
  rw [Meaning.completed, Meaning.completion, Meaning.wrapped, List.map_append, List.map_map,
    hgiven, updates, updatesOf_append, updatesOf_append, updatesOf_pauses, List.nil_append,
    List.map_map, updatesOf, List.flatMap_map]
  exact congrArg (· ++ _) (List.map_eq_flatMap ..).symm

theorem means_ofCommands (task : Task) (trigger : TaskMessage) (cs : List Command) {index : Nat}
    {kept : List Artifact} (hd : d.nextIndex = index % Nat.pow 2 32)
    (hk : d.kept = kept.map Artifact.wrapped) :
    (ofCommands task trigger cs d).Means task.id
      (Meaning.ofCommands task trigger kept index cs).wrapped := by
  induction cs generalizing d index kept with
  | nil =>
      rw [ofCommands, Meaning.ofCommands, Meaning.answers]
      simp only [List.filter_nil, List.zipIdx_nil, List.filterMap_nil, List.append_nil, hk]
      exact means_completed hd
  | cons c cs ih =>
      have hwrap {p : Plan} {m : Meaning} (hp : p.Means task.id m) :
          (p.after (.check :: d.pauses)).Means task.id m := hp.after updatesOf_pauses
      have hskip {d' : Draft} (hi : d'.nextIndex = d.nextIndex) (hkept : d'.kept = d.kept)
          (hh : c.halts task = false) (ha : c.isAnswer = false) :
          ((ofCommands task trigger cs d').after [.check]).Means task.id
            (Meaning.ofCommands task trigger kept index (c :: cs)).wrapped := by
        rw [Meaning.ofCommands_skip hh ha]
        exact Means.after (ih (hi.trans hd) (hkept.trans hk)) rfl
      have hanswer {name : String} {part : Part}
          (h : c.answer? task index = some (.whole name index [part])) :
          ((ofCommands task trigger cs (d.keep name part)).after [.check]).Means task.id
            (Meaning.ofCommands task trigger kept index (c :: cs)).wrapped := by
        rw [Meaning.ofCommands_answer h]
        refine Means.after (ih ?_ ?_) rfl
        · rw [Draft.keep, hd, Nat.mod_add_mod]
        · rw [Draft.keep, hk, hd, List.map_append]
          rfl
      have hhalt {p : Plan} {m : Meaning} (h : c.verdict? task index = some m)
          (hp : p.Means task.id m.wrapped) :
          p.Means task.id (Meaning.ofCommands task trigger kept index (c :: cs)).wrapped := by
        rwa [Meaning.ofCommands_halt h]
      cases c with
      | wait ms => exact hwrap (hskip rfl rfl rfl rfl)
      | respond kind payload =>
          cases kind with
          | text | file => exact hwrap (hanswer rfl)
          | data =>
              rw [ofCommands, partOf]
              cases hv : Json.parse payload with
              | ok v => exact hwrap (hanswer (by simp [Command.answer?, hv, Except.toOption]))
              | error e => exact hwrap (hhalt (by simp [Command.verdict?, hv]) means_failing)
      | ask prompt => exact hwrap (hhalt rfl ⟨rfl, rfl⟩)
      | stream count => exact hwrap (hhalt rfl (hd ▸ means_streaming))
      | error outcome =>
          cases outcome with
          | code n => exact hwrap (hhalt rfl ⟨rfl, rfl⟩)
          | fail => exact hwrap (hhalt rfl means_failing)
      | getHeaders =>
          rw [ofCommands]
          cases hheaders : task.metadata.headers with
          | some headers => exact hwrap (hanswer (by simp [Command.answer?, hheaders, headersPart]))
          | none => exact hwrap (hhalt (by simp [Command.verdict?, hheaders]) means_failing)
      | unknown name => exact hwrap (hskip rfl rfl rfl rfl)

theorem means_wrapped (htrigger : task.history.getLast? = some trigger)
    (hlt : task.nextArtifactIndex < Nat.pow 2 32) :
    (ofTask task).Means task.id (Meaning.ofTask task trigger).wrapped := by
  have hm := means_ofCommands (d := { nextIndex := task.nextArtifactIndex }) task trigger
    (Command.ofMessage trigger) (Nat.mod_eq_of_lt hlt).symm List.map_nil.symm
  unfold ofTask
  rw [htrigger]
  refine ⟨?_, hm.ending⟩
  rw [updates_after, hm.updates]
  rfl

theorem means_ofTask (htrigger : task.history.getLast? = some trigger)
    (hroom : task.nextArtifactIndex + (Command.ofMessage trigger).length ≤ Nat.pow 2 32)
    (hlt : task.nextArtifactIndex < Nat.pow 2 32) :
    (ofTask task).Means task.id (.ofTask task trigger) := by
  have hbelow : (Meaning.ofTask task trigger).Below (Nat.pow 2 32) :=
    Meaning.below_ofCommands hroom hlt
  exact hbelow.wrapped ▸ means_wrapped htrigger hlt

end Plan

namespace Task

/-- That so many artifacts can follow those of a task within 32 bits. -/
def HasRoomFor (task : Task) (n : Nat) : Prop :=
  n < Nat.pow 2 32 ∧ ∀ a ∈ task.artifacts, a.index + n < Nat.pow 2 32

variable {task : Task} {n : Nat}

theorem nextArtifactIndex_lt : task.nextArtifactIndex < Nat.pow 2 32 :=
  List.foldlRecOn (motive := (· < Nat.pow 2 32)) _ _ (by decide) fun _ hn _ _ =>
    Nat.max_lt.mpr ⟨hn, Nat.mod_lt _ (by decide)⟩

theorem HasRoomFor.nextArtifactIndex_add_le (h : task.HasRoomFor n) :
    task.nextArtifactIndex + n ≤ Nat.pow 2 32 := by
  have hle : task.nextArtifactIndex ≤ Nat.pow 2 32 - n := by
    refine List.foldlRecOn (motive := (· ≤ Nat.pow 2 32 - n)) _ _ (Nat.zero_le _) ?_
    intro m hm a ha
    have hindex := h.2 a ha
    have hmod := Nat.mod_le (a.index + 1) (Nat.pow 2 32)
    exact Nat.max_le.mpr ⟨hm, by omega⟩
  have hn := h.1
  omega

end Task

namespace Solo

variable {task : Task} {trigger : TaskMessage} {es : List Event} {s : Solo}

/-- An invocation that is left alone emits what its commands mean, however long it sleeps, however
small the queue and however slow the reader: at any moment the beginning of it, and all of it once
it has ended, with the ending that it means. And an end is always within reach. -/
theorem emits_meaning {delay : Nanos} {capacity : Nat} {script : SoloScript}
    (htrigger : task.history.getLast? = some trigger)
    (hroom : task.HasRoomFor (Command.ofMessage trigger).length)
    (h : Course (fresh delay capacity task script) es s) (hes : Undisturbed es) :
    (emitted es).map Update.untimed <+: (Meaning.ofTask task trigger).updates ∧
    (∀ e, s.producer.ending? = some e →
      (emitted es).map Update.untimed = (Meaning.ofTask task trigger).updates ∧
        e = (Meaning.ofTask task trigger).ending) ∧
    (0 < capacity → ∃ fs s', Undisturbed fs ∧ Course s fs s' ∧ s'.HasEnded) ∧
    es.countP Event.isProduced ≤ (Producer.start delay task).remaining := by
  have hmeans := Plan.means_ofTask htrigger hroom.nextArtifactIndex_add_le
    Task.nextArtifactIndex_lt
  refine ⟨?_, fun e he => ?_, fun hcap => exists_end (h.capacity ▸ hcap), ?_⟩
  · rw [← hmeans.updates]
    exact h.along.tracks.isPrefix
  · obtain ⟨hall, hending⟩ := h.along.complete hes he
    exact ⟨hall.trans hmeans.updates, hending.trans hmeans.ending⟩
  · exact Nat.le_trans (Nat.le_add_left ..) h.remaining_le

theorem emits_meaning_streaming :
    let trigger : TaskMessage := .userText "respond(text, hi)\nwait(1s)\nstream(2)\nask(more?)"
    let task : Task :=
      { id := "t", status := { state := .submitted }, history := [trigger]
        artifacts := [.whole "response" 4 []] }
    let s := (start (Nanos.ofSecs 1) 1 task {}).run "now" 20
    task.HasRoomFor (Command.ofMessage trigger).length ∧
      s.producer.ending? = some (.reached .completed) ∧
      ∃ es, Course (fresh (Nanos.ofSecs 1) 1 task {}) es s ∧
        (emitted es).map Update.untimed = (Meaning.ofTask task trigger).updates ∧
        (chunksOf ((emitted es).map Update.untimed)).map Artifact.index = [6, 6] := by
  intro trigger task s
  have hroom : task.HasRoomFor (Command.ofMessage trigger).length := by
    have hlength : (Command.ofMessage trigger).length = 4 := by decide +kernel
    rw [hlength]
    exact ⟨by decide, by simp [task, Artifact.whole]⟩
  have hs : s.producer.ending? = some (.reached .completed) ∧ s.cancelled = false ∧
      s.reading = true := by
    decide +kernel
  have hindexes :
      (chunksOf (Meaning.ofTask task trigger).updates).map Artifact.index = [6, 6] := by
    decide +kernel
  obtain ⟨es, hrun⟩ : ∃ es, Course (fresh (Nanos.ofSecs 1) 1 task {}) es s :=
    course_start_run 20
  have hes : Undisturbed es :=
    ⟨fun hc => by simpa [hs.2.1] using hrun.along.cancelled.mpr hc,
      fun hl => by simpa [hs.2.2] using hrun.along.left.mpr hl⟩
  have htrigger : task.history.getLast? = some trigger := rfl
  obtain ⟨-, hended, -, -⟩ := emits_meaning htrigger hroom hrun hes
  have hall := (hended _ hs.1).1
  exact ⟨hroom, hs.1, es, hrun, hall, hall ▸ hindexes⟩

end Solo

end AgentGateway
