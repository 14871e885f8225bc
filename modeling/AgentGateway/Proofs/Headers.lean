import AgentGateway.Proofs.Meaning
import AgentGateway.Proofs.Reencoding
/-!
The headers that a task carries, and those that its invocations are told of. A message that creates
a task puts the headers of its session over what the client says; one that resumes a task leaves
the task with the headers that it had, whichever session the message comes from.
-/

namespace AgentGateway

open Json (Value)
open KeyOrder (Ascends)

namespace Task

def header? (t : Task) (name : String) : Option String :=
  (t.metadata.headers.getD []).lookup name

/-- That a task carries headers; of a name that is given twice the last value counts. -/
def Carries (headers : List (String × String)) (t : Task) : Prop :=
  ∀ name value, headers.reverse.lookup name = some value → t.header? name = some value

end Task

def TaskSendParams.header? (p : TaskSendParams) (name : String) : Option String :=
  ((p.metadata.getD []).lookup "headers").bind fun v => (v.get? name).bind Value.asString?

/-- A header that is read off an artifact with one part of data. -/
def Artifact.header? (a : Artifact) (name : String) : Option String :=
  match a.parts with
  | [.data v] => (v.get? name).bind Value.asString?
  | _ => none

namespace TaskStore

/-- The stores that come about; what clients say of their tasks has been read as JSON. -/
inductive Reached : TaskStore → Prop
  | empty (maxHistory : Nat) : Reached (.empty maxHistory)
  | send {s s' p headers k timestamp task} : Reached s →
      (∀ fields, p.metadata = some fields → (Value.object fields).Ordered) →
      s.send p headers k timestamp = .ok (task, s') → Reached s'
  | update {s} (id u timestamp) : Reached s → Reached (s.update id u timestamp)
  | finish {s} (id ending timestamp) : Reached s → Reached (s.finish id ending timestamp).2
  | cancel {s s' id timestamp task token} : Reached s →
      s.cancel id timestamp = .ok (task, token, s') → Reached s'

section Metadata

variable {p : TaskSendParams} {headers : List (String × String)} {timestamp : String} {task : Task}
  {fields : List (String × Value)}

theorem ascends_fields {hs : List (String × String)} :
    Ascends (hs.map fun (k, v) => (k, Value.string v)) ↔ Ascends hs := List.pairwise_map

theorem lookup_fields {hs : List (String × String)} {name : String} :
    ((hs.map fun (k, v) => (k, Value.string v)).lookup name).bind Value.asString? =
      hs.lookup name := by
  induction hs with
  | nil => rfl
  | cons e hs ih =>
      rw [List.map_cons, lookup_cons_key, lookup_cons_key]
      split
      · rfl
      · exact ih

theorem decoded_metadata {m : TaskMetadata} (hordered : (Value.object fields).Ordered)
    (h : TaskMetadata.decode (.object fields) = .ok m) :
    Ascends (m.headers.getD []) ∧
      (∀ name, (m.headers.getD []).lookup name =
        (fields.lookup "headers").bind fun v => (v.get? name).bind Value.asString?) ∧
      m.extra = fields.filter (·.1 ≠ "headers") := by
  obtain ⟨found, hfound, hm⟩ := bind_eq_ok.mp h
  cases hm
  cases hlookup : fields.lookup "headers" with
  | none =>
      rw [hlookup] at hfound
      cases hfound
      exact ⟨List.Pairwise.nil, fun _ => rfl, rfl⟩
  | some v =>
      rw [hlookup] at hfound
      obtain ⟨o, ho, hfound⟩ := bind_eq_ok.mp hfound
      cases hfound
      have hv : v.Ordered :=
        (Value.ordered_object.mp hordered).2 _ (mem_of_lookup hlookup)
      cases v with
      | null =>
          cases ho
          exact ⟨List.Pairwise.nil, fun _ => rfl, rfl⟩
      | object inner =>
          obtain ⟨hs, hhs, rfl⟩ := map_eq_ok.mp ho
          obtain rfl := Decode.stringMap_eq_ok hhs
          exact ⟨ascends_fields.mp (Value.ordered_object.mp hv).1,
            fun name => lookup_fields.symm, rfl⟩
      | bool | number | string | array => cases ho

theorem metadataOf_spec {m : TaskMetadata}
    (hordered : ∀ fields, p.metadata = some fields → (Value.object fields).Ordered)
    (h : metadataOf p.metadata headers = .ok m) :
    Ascends (m.headers.getD []) ∧
      (∀ name, (m.headers.getD []).lookup name =
        (headers.reverse.lookup name).or (p.header? name)) ∧
      m.extra = (p.metadata.getD []).filter (·.1 ≠ "headers") := by
  obtain ⟨client, hclient, h⟩ : ∃ client : TaskMetadata,
      (Ascends (client.headers.getD []) ∧
        (∀ name, (client.headers.getD []).lookup name = p.header? name) ∧
        client.extra = (p.metadata.getD []).filter (·.1 ≠ "headers")) ∧
      (if headers.isEmpty then .ok client
        else .ok { client with
          headers := some (KeyOrder.insertAll headers (client.headers.getD [])) } :
        Except Fault TaskMetadata) = .ok m := by
    unfold metadataOf at h
    unfold TaskSendParams.header?
    cases hp : p.metadata with
    | none =>
        rw [hp] at h
        exact ⟨{}, ⟨List.Pairwise.nil, fun _ => rfl, rfl⟩, h⟩
    | some fields =>
        rw [hp] at h
        obtain ⟨client, hclient, h⟩ := bind_eq_ok.mp h
        exact ⟨client, decoded_metadata (hordered fields hp) (mapError_eq_ok.mp hclient), h⟩
  obtain ⟨hascends, hnames, hextra⟩ := hclient
  split at h
  · rename_i hempty
    cases h
    rw [List.isEmpty_iff.mp hempty]
    exact ⟨hascends, hnames, hextra⟩
  · cases h
    refine ⟨hascends.insertAll, fun name => ?_, hextra⟩
    rw [Option.getD_some, KeyOrder.lookup_insertAll, hnames]

theorem create_metadata
    (hordered : ∀ fields, p.metadata = some fields → (Value.object fields).Ordered)
    (h : create p headers timestamp = .ok task) :
    Ascends (task.metadata.headers.getD []) ∧
      (∀ name, task.header? name = (headers.reverse.lookup name).or (p.header? name)) ∧
      task.metadata.extra = (p.metadata.getD []).filter (·.1 ≠ "headers") := by
  obtain ⟨m, hm, h⟩ := bind_eq_ok.mp h
  cases h
  exact metadataOf_spec hordered hm

end Metadata

def Headed (s : TaskStore) : Prop :=
  ∀ id e, s.find? id = some e → Ascends (e.task.metadata.headers.getD [])

variable {s s' : TaskStore} {p : TaskSendParams} {headers : List (String × String)} {k : Token}
  {timestamp : String} {task : Task}

theorem metadata_fold {max : Nat} {u : Update} {t : Task} :
    (fold max timestamp u t).metadata = t.metadata := by
  cases u with
  | artifact | error => rfl
  | status e =>
      rw [fold]
      unfold withStatus
      split
      · split <;> rfl
      · rfl

theorem metadata_conclude {ending : Ending} {t : Task} :
    (conclude ending timestamp t).metadata = t.metadata := by
  unfold conclude
  split
  · rfl
  · split <;> rfl

theorem Headed.alter {id : String} {f : TaskEntry → TaskEntry} (h : s.Headed)
    (hf : ∀ e, (f e).task.metadata = e.task.metadata)
    (hfind : ∀ q, s'.find? q = if q = id then (s.find? id).map f else s.find? q) :
    s'.Headed := by
  intro q e he
  rw [hfind] at he
  split at he
  · obtain ⟨before, hbefore, rfl⟩ := Option.map_eq_some_iff.mp he
    exact hf before ▸ h id before hbefore
  · exact h q e he

theorem Headed.send (h : s.Headed)
    (hordered : ∀ fields, p.metadata = some fields → (Value.object fields).Ordered)
    (hsend : s.send p headers k timestamp = .ok (task, s')) : s'.Headed := by
  obtain ⟨hfind, hcase⟩ := send_spec hsend
  intro q e he
  rw [hfind] at he
  split at he
  · cases he
    rcases hcase with ⟨-, hcreate⟩ | ⟨e, he, -, -, rfl⟩
    · exact (create_metadata hordered hcreate).1
    · exact h p.id e he
  · exact h q e he

theorem Reached.headed (h : s.Reached) : 1 ≤ s.maxHistory ∧ s.Headed := by
  induction h with
  | empty maxHistory => exact ⟨Nat.le_max_right .., nofun⟩
  | send _ hordered hsend ih =>
      exact ⟨maxHistory_send hsend ▸ ih.1, ih.2.send hordered hsend⟩
  | update id u timestamp _ ih =>
      refine ⟨maxHistory_update.symm ▸ ih.1, ih.2.alter (fun e => ?_) fun _ => find?_update⟩
      unfold TaskEntry.fold
      split
      · rfl
      · exact metadata_fold
  | finish id ending timestamp _ ih =>
      exact ⟨maxHistory_finish.symm ▸ ih.1,
        ih.2.alter (fun _ => metadata_conclude) fun _ => find?_finish⟩
  | @cancel s s' id timestamp task token _ hcancel ih =>
      obtain ⟨e, he, -, -, hfind⟩ := cancel_spec hcancel
      have hfind (q : String) : s'.find? q =
          if q = id then (s.find? id).map (TaskEntry.cancel timestamp) else s.find? q := by
        rw [hfind, he]
        rfl
      exact ⟨maxHistory_cancel hcancel ▸ ih.1, ih.2.alter (f := .cancel timestamp) (fun _ => rfl) hfind⟩

end TaskStore

namespace Meaning

variable {task : Task} {trigger : TaskMessage} {index : Nat} {c : Command} {cs : List Command}
  {a : Artifact} {artifacts : List Artifact} {m : Meaning}

theorem chunksOf_wrapped : chunksOf m.wrapped.updates = (chunksOf m.updates).map .wrapped := by
  rw [Meaning.wrapped, chunksOf, chunksOf, List.filterMap_map, List.map_filterMap]
  refine List.filterMap_congr fun u _ => ?_
  cases u <;> rfl

theorem chunksOf_completed : chunksOf (completed task trigger index artifacts).updates =
    if artifacts.isEmpty then [Plan.defaultArtifact trigger index] else artifacts := by
  rw [completed, completion, chunksOf_append]
  refine (List.append_nil _).trans ?_
  rw [chunksOf, List.filterMap_map]
  exact List.filterMap_some

theorem name_of_verdict (h : c.verdict? task index = some m) (ha : a ∈ chunksOf m.updates) :
    a.name = some "stream" := by
  cases c with
  | wait | unknown => cases h
  | ask =>
      cases h
      cases ha
  | stream count =>
      cases h
      rw [completion, chunksOf_append] at ha
      rcases List.mem_append.mp ha with ha | ha
      · obtain ⟨u, hu, hchunk⟩ := List.mem_filterMap.mp ha
        obtain ⟨k, -, rfl⟩ := List.mem_map.mp hu
        cases hchunk
        rfl
      · cases ha
  | error outcome => cases outcome <;> cases h <;> cases ha
  | respond kind payload =>
      cases kind with
      | text | file => cases h
      | data =>
          rw [Command.verdict?] at h
          split at h <;> cases h
          cases ha
  | getHeaders =>
      rw [Command.verdict?] at h
      split at h <;> cases h
      cases ha

theorem headers_of_answer (h : c.answer? task index = some a) (hname : a.name = some "headers") :
    ∃ hs, task.metadata.headers = some hs ∧ a.parts = [Plan.headersPart hs] := by
  cases c with
  | wait | ask | stream | error | unknown => cases h
  | respond kind payload =>
      cases kind with
      | text | file =>
          cases h
          exact absurd hname (by simp [Artifact.whole])
      | data =>
          obtain ⟨v, -, rfl⟩ := Option.map_eq_some_iff.mp h
          exact absurd hname (by simp [Artifact.whole])
  | getHeaders =>
      obtain ⟨hs, hhs, rfl⟩ := Option.map_eq_some_iff.mp h
      exact ⟨hs, hhs, rfl⟩

theorem headers_of_chunk (h : a ∈ chunksOf (ofTask task trigger).wrapped.updates)
    (hname : a.name = some "headers") :
    ∃ hs, task.metadata.headers = some hs ∧ a.parts = [Plan.headersPart hs] := by
  rw [chunksOf_wrapped] at h
  obtain ⟨a, ha, rfl⟩ := List.mem_map.mp h
  have hname : a.name = some "headers" := hname
  have ha : a ∈ chunksOf (ofCommands task trigger [] task.nextArtifactIndex
    (Command.ofMessage trigger)).updates := ha
  rw [ofCommands] at ha
  cases hhalted : halted? task task.nextArtifactIndex (Command.ofMessage trigger) with
  | some m =>
      obtain ⟨c, -, hm⟩ := Option.bind_eq_some_iff.mp hhalted
      rw [hhalted] at ha
      exact absurd (hname.symm.trans (name_of_verdict hm ha)) (by decide)
  | none =>
      rw [hhalted, Option.getD_none, chunksOf_completed] at ha
      split at ha
      · obtain rfl := List.mem_singleton.mp ha
        exact absurd hname (by simp [Plan.defaultArtifact, Artifact.whole])
      · obtain ⟨⟨c, i⟩, -, hanswer⟩ := List.mem_filterMap.mp ha
        obtain ⟨hs, hhs, hparts⟩ := headers_of_answer hanswer hname
        exact ⟨hs, hhs, hparts⟩

theorem exists_headers (hmem : .getHeaders ∈ Command.ofMessage trigger)
    (hopen : ∀ c ∈ Command.ofMessage trigger, c.halts task = false) :
    ∃ a ∈ chunksOf (ofTask task trigger).wrapped.updates, a.name = some "headers" := by
  obtain ⟨hs, hhs⟩ : ∃ hs, task.metadata.headers = some hs := by
    have hheaders := hopen _ hmem
    cases hhs : task.metadata.headers with
    | some hs => exact ⟨hs, rfl⟩
    | none => simp [Command.halts, Command.verdict?, hhs] at hheaders
  have hhalted : halted? task task.nextArtifactIndex (Command.ofMessage trigger) = none := by
    rw [halted?, List.find?_eq_none.mpr fun c hc => by simp [hopen c hc]]
    rfl
  have hfilter : .getHeaders ∈ (Command.ofMessage trigger).filter Command.isAnswer :=
    List.mem_filter.mpr ⟨hmem, rfl⟩
  obtain ⟨i, hi⟩ := List.getElem?_of_mem hfilter
  let index := task.nextArtifactIndex + i
  have hcommand : (Command.getHeaders, index) ∈
      ((Command.ofMessage trigger).filter Command.isAnswer).zipIdx task.nextArtifactIndex :=
    List.mk_mem_zipIdx_iff_le_and_getElem?_sub.mpr
      ⟨Nat.le_add_right .., by rw [Nat.add_sub_cancel_left, hi]⟩
  let a : Artifact := .whole "headers" index [Plan.headersPart hs]
  have hanswer : a ∈ answers task task.nextArtifactIndex (Command.ofMessage trigger) :=
    List.mem_filterMap.mpr ⟨_, hcommand, by simp [Command.answer?, hhs, a, Plan.headersPart]⟩
  refine ⟨a.wrapped, ?_, rfl⟩
  rw [chunksOf_wrapped]
  refine List.mem_map_of_mem ?_
  have hgoal : a ∈ chunksOf (ofCommands task trigger [] task.nextArtifactIndex
      (Command.ofMessage trigger)).updates := by
    rw [ofCommands, hhalted, Option.getD_none, chunksOf_completed, List.nil_append,
      if_neg (by simpa using List.ne_nil_of_mem hanswer)]
    exact hanswer
  exact hgoal

end Meaning

theorem Artifact.header?_of_parts {a : Artifact} {hs : List (String × String)} {name : String}
    (h : a.parts = [Plan.headersPart hs]) (hascends : Ascends hs) :
    a.header? name = hs.lookup name := by
  have hfields : Value.ofFields (hs.map fun (k, v) => (k, Value.string v)) =
      .object (hs.map fun (k, v) => (k, Value.string v)) :=
    congrArg Value.object (TaskStore.ascends_fields.mpr hascends).ofList_eq
  rw [Artifact.header?, h]
  unfold Plan.headersPart
  dsimp only
  rw [hfields]
  exact TaskStore.lookup_fields

/-- What becomes of the headers of a session that sends a message: what the store holds and the
invocation is told of. -/
structure TaskStore.Conveys (s s' : TaskStore) (p : TaskSendParams)
    (headers : List (String × String)) (task : Task) : Prop where
  stored : (s'.find? p.id).map TaskEntry.task = some task
  created : s.find? p.id = none →
    (∀ name, task.header? name = (headers.reverse.lookup name).or (p.header? name)) ∧
      task.metadata.extra = (p.metadata.getD []).filter (·.1 ≠ "headers")
  resumed : ∀ e, s.find? p.id = some e → task.metadata = e.task.metadata
  carries_iff : task.Carries headers ↔
    s.find? p.id = none ∨ ∃ e, s.find? p.id = some e ∧ e.task.Carries headers
  told : ∀ delay capacity script es x, Solo.Course (.fresh delay capacity task script) es x →
    ∀ a ∈ chunksOf (Solo.emitted es), a.name = some "headers" →
      ∀ name, a.header? name = task.header? name
  answered : .getHeaders ∈ Command.ofMessage p.message →
    (∀ c ∈ Command.ofMessage p.message, c.halts task = false) →
    ∀ delay capacity script es x, Solo.Course (.fresh delay capacity task script) es x →
      Solo.Undisturbed es → x.HasEnded →
        ∃ a ∈ chunksOf (Solo.emitted es), a.name = some "headers"

namespace TaskStore

variable {s s' : TaskStore} {p : TaskSendParams} {headers : List (String × String)} {k : Token}
  {timestamp : String} {task : Task}

/-- A task carries the headers of the session that has sent a message to it if and only if the
message has created the task or the task carried these very headers before: a task that is resumed
keeps the headers that it was created with, and so its invocation is told of these. -/
theorem carries_headers_iff (hs : s.Reached)
    (hordered : ∀ fields, p.metadata = some fields → (Value.object fields).Ordered)
    (h : s.send p headers k timestamp = .ok (task, s')) : s.Conveys s' p headers task := by
  obtain ⟨hfind, hcase⟩ := send_spec h
  obtain ⟨hmax, hheaded⟩ := hs.headed
  have hstored : s'.find? p.id = some ⟨task, some k⟩ := (hfind p.id).trans (if_pos rfl)
  have hascends : Ascends (task.metadata.headers.getD []) :=
    hheaded.send hordered h p.id _ hstored
  have htrigger : task.history.getLast? = some p.message :=
    (history_of_send hmax h).1 ▸ getLast?_trim hmax
  have hmeans := Plan.means_wrapped htrigger Task.nextArtifactIndex_lt
  refine ⟨by rw [hstored, Option.map_some], fun hnone => ?_, fun e he => ?_, ?_, ?_, ?_⟩
  · rcases hcase with ⟨-, hcreate⟩ | ⟨e, he, -⟩
    · exact (create_metadata hordered hcreate).2
    · cases hnone.symm.trans he
  · rcases hcase with ⟨hnone, -⟩ | ⟨e', he', -, -, rfl⟩
    · cases hnone.symm.trans he
    · cases he.symm.trans he'
      rfl
  · rcases hcase with ⟨hnone, hcreate⟩ | ⟨e, he, -, -, rfl⟩
    · refine iff_of_true (fun name value hvalue => ?_) (.inl hnone)
      rw [(create_metadata hordered hcreate).2.1, hvalue, Option.some_or]
    · refine ⟨fun hcarries => .inr ⟨e, he, hcarries⟩, ?_⟩
      rintro (hnone | ⟨e', he', hcarries⟩)
      · cases hnone.symm.trans he
      · cases he.symm.trans he'
        exact hcarries
  · intro delay capacity script es x hcourse a ha hname name
    have hchunk : a ∈ chunksOf (Meaning.ofTask task p.message).wrapped.updates := by
      rw [← hmeans.updates]
      rw [← chunksOf_untimed] at ha
      exact (hcourse.along.tracks.isPrefix.filterMap _).subset ha
    obtain ⟨hs, hhs, hparts⟩ := Meaning.headers_of_chunk hchunk hname
    rw [Task.header?, hhs, Option.getD_some]
    rw [hhs, Option.getD_some] at hascends
    exact Artifact.header?_of_parts hparts hascends
  · intro hmem hopen delay capacity script es x hcourse hes hended
    obtain ⟨e, he⟩ := Option.isSome_iff_exists.mp hended
    obtain ⟨a, ha, hname⟩ := Meaning.exists_headers hmem hopen
    rw [← hmeans.updates, ← (hcourse.along.complete hes he).1, chunksOf_untimed] at ha
    exact ⟨a, ha, hname⟩

theorem carries_headers_iff_resumed :
    let p : TaskSendParams := { id := "t", message := .userText "ask(more?)" }
    let q : TaskSendParams := { id := "t", message := .userText "get_headers" }
    let task (history : List TaskMessage) : Task :=
      { Task.new "t" "0" with history, metadata := { headers := some [("trace", "1")] } }
    let s := (((empty 9).put "t" ⟨task [p.message], some 0⟩).finish "t"
      (.reached .inputRequired) "1").2
    let resumed := task [p.message, q.message]
    let s' := s.put "t" ⟨resumed, some 1⟩
    (empty 9).send p [("trace", "1")] 0 "0" =
        .ok (task [p.message], (empty 9).put "t" ⟨task [p.message], some 0⟩) ∧
      s.Reached ∧ s.send q [("trace", "2")] 1 "2" = .ok (resumed, s') ∧
      s.Conveys s' q [("trace", "2")] resumed ∧ ¬ resumed.Carries [("trace", "2")] ∧
      resumed.header? "trace" = some "1" := by
  intro p q task s resumed s'
  have hsend : (empty 9).send p [("trace", "1")] 0 "0" =
      .ok (task [p.message], (empty 9).put "t" ⟨task [p.message], some 0⟩) := by rfl
  have hplain : ∀ fields, p.metadata = some fields → (Value.object fields).Ordered := nofun
  have hs : s.Reached := .finish _ _ _ (.send (.empty 9) hplain hsend)
  have hresume : s.send q [("trace", "2")] 1 "2" = .ok (resumed, s') := by rfl
  have hheader : resumed.header? "trace" = some "1" := by rfl
  refine ⟨hsend, hs, hresume, carries_headers_iff hs nofun hresume, fun hcarries => ?_, hheader⟩
  exact absurd (hheader.symm.trans (hcarries "trace" "2" rfl)) (by decide)

end TaskStore

end AgentGateway
