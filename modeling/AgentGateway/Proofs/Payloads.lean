import AgentGateway.Proofs.Meaning
import AgentGateway.Proofs.Scripts
import AgentGateway.Proofs.Texts
/-!
Data as payloads: what becomes of a task that asks for a value of JSON in its compact text. A text
that is a literal of a string is taken for the string, and so a string stands for the value that it
spells.
-/

namespace AgentGateway

open Json (Value)
open Json.Value (Within)

variable {v w : Value} {task : Task} {trigger : TaskMessage}

namespace Command

/-- What a value stands for as a payload. -/
def payload : Value → String
  | .string s => s
  | v => v.compact

theorem start_of_not_string (h : v.Exact) (hv : ∀ s, v ≠ .string s) :
    ∃ c cs, v.chars = c :: cs ∧ c ≠ '"' := by
  cases h with
  | null => exact ⟨_, _, rfl, by decide⟩
  | bool b => cases b <;> exact ⟨_, _, rfl, by decide⟩
  | number hn =>
      obtain ⟨c, cs, hcs, hc⟩ := hn.start
      refine ⟨c, cs, hcs, ?_⟩
      rintro rfl
      cases hc
  | string s => exact absurd rfl (hv s)
  | @array items _ => cases items <;> exact ⟨_, _, rfl, by decide⟩
  | @object fields _ => cases fields <;> exact ⟨_, _, rfl, by decide⟩

theorem payload_of_not_string (hv : ∀ s, v ≠ .string s) : payload v = v.compact := by
  cases v with
  | string s => exact absurd rfl (hv s)
  | null | bool | number | array | object => rfl

theorem denotes_payload (h : v.Exact) : Denotes v.chars (payload v).toList := by
  by_cases hv : ∃ s, v = .string s
  · obtain ⟨s, rfl⟩ := hv
    exact .literal (Json.literal_quoteChars s.toList)
  · have hv := not_exists.mp hv
    obtain ⟨c, cs, hcs, hc⟩ := start_of_not_string h hv
    rw [payload_of_not_string hv, Value.compact, String.toList_ofList, hcs]
    exact denotes_of_head hc

theorem ofText_data (h : v.Exact) :
    ofText ("respond(data, " ++ v.compact ++ ")") = [.respond .data (payload v)] := by
  obtain ⟨c, cs, hcs, hc⟩ := h.start
  have hkey : Keyed "payload" v.chars v.chars := by
    rw [hcs]
    refine keyed_of_head (d := 'p') rfl ?_
    rintro rfl
    cases hc
  have hfits := fits_respond .data h.isTrimmed h.ne_nil hkey (denotes_payload h)
  have hraw : '\n' ∉ RespondKind.data.name.toList ++ ',' :: ' ' :: v.chars := by
    simp [RespondKind.name, h.notMem_newline]
  have hspeaks := speaks_call (by simp [known]) hraw hfits
  have hline : "respond(data, " ++ v.compact ++ ")" = String.ofList (['\n'].intercalate
      [call "respond" (RespondKind.data.name.toList ++ ',' :: ' ' :: v.chars)]) := by
    apply String.toList_injective
    simp [call, RespondKind.name, Value.compact]
  rw [hline, ofText_lines (List.forall_mem_singleton.mpr hspeaks.notMem_newline),
    List.filterMap_cons_some (commandOf?_of_fits hspeaks.phrase hspeaks.fits), String.ofList_toList]
  rfl

end Command

namespace Meaning

def delivery (task : Task) (v : Value) : Meaning where
  updates := [status task .working (some "Parsing task commands") false,
    .artifact ⟨task.id, .whole "response" task.nextArtifactIndex [.data v]⟩,
    status task .completed none true]
  ending := .reached .completed

def refusal (task : Task) (e : Json.ReadError) : Meaning :=
  let reason := "invalid JSON payload for data response: " ++ e.message
  { updates := [status task .working (some "Parsing task commands") false,
      status task .failed (some reason) true]
    ending := .failed (.internal reason) }

theorem ofTask_delivery {payload : String} (hparse : Json.parse payload = .ok w)
    (h : Command.ofMessage trigger = [.respond .data payload]) :
    ofTask task trigger = delivery task w := by
  have hanswer : (Command.respond .data payload).answer? task task.nextArtifactIndex =
      some (.whole "response" task.nextArtifactIndex [.data w]) := by
    rw [Command.answer?, hparse]
    rfl
  rw [ofTask, h, ofCommands_answer hanswer]
  rfl

theorem ofTask_refusal {payload : String} {e : Json.ReadError}
    (hparse : Json.parse payload = .error e)
    (h : Command.ofMessage trigger = [.respond .data payload]) :
    ofTask task trigger = refusal task e := by
  have hverdict : (Command.respond .data payload).verdict? task task.nextArtifactIndex =
      some (failure task ("invalid JSON payload for data response: " ++ e.message)) := by
    rw [Command.verdict?, hparse]
  rw [ofTask, h, ofCommands_halt hverdict]
  rfl

end Meaning

namespace Solo

variable {es : List Event} {s : Solo}

/-- That a course tells of a task what a meaning says: at any moment the beginning of it, and all of
it at the end, which is always within reach, and is so many steps of the producer away at most. -/
structure Conveys (m : Meaning) (es : List Event) (s : Solo) : Prop where
  isPrefix : (emitted es).map Update.untimed <+: m.updates
  ended : ∀ e, s.producer.ending? = some e →
    (emitted es).map Update.untimed = m.updates ∧ e = m.ending
  reachable : 0 < s.capacity → ∃ fs s', Undisturbed fs ∧ Course s fs s' ∧ s'.HasEnded
  bounded : ∀ fs s', Course s fs s' → fs.countP Event.isProduced ≤ s.producer.remaining

theorem conveys_ofTask {delay : Nanos} {capacity : Nat} {script : SoloScript}
    (htrigger : task.history.getLast? = some trigger)
    (hone : (Command.ofMessage trigger).length ≤ 1)
    (h : Course (fresh delay capacity task script) es s) (hes : Undisturbed es) :
    Conveys (Meaning.ofTask task trigger) es s := by
  have hlt : task.nextArtifactIndex < Nat.pow 2 32 := Task.nextArtifactIndex_lt
  have hmeans := Plan.means_ofTask htrigger (by omega) hlt
  constructor
  · rw [← hmeans.updates]
    exact h.along.tracks.isPrefix
  · intro e he
    obtain ⟨hall, hending⟩ := h.along.complete hes he
    exact ⟨hall.trans hmeans.updates, hending.trans hmeans.ending⟩
  · exact exists_end
  · intro fs s' hfs
    exact Nat.le_trans (Nat.le_add_left ..) hfs.remaining_le

/-- A task whose only text asks for a value in its compact text, and whose invocation is left alone,
is completed with that value as its data, if the value is not a string. A string is the payload
itself: the value that it spells is the data, and if it spells none the task fails. -/
theorem conveys_data {delay : Nanos} {capacity : Nat} {script : SoloScript}
    (hordered : v.Ordered) (hwithin : Within 127 v) (hexact : v.Exact)
    (htrigger : task.history.getLast? = some trigger)
    (htexts : trigger.texts = ["respond(data, " ++ v.compact ++ ")"])
    (h : Course (fresh delay capacity task script) es s) (hes : Undisturbed es) :
    ((∀ text, v ≠ .string text) → Conveys (Meaning.delivery task v) es s) ∧
    ∀ text, v = .string text →
      (∀ w, Json.parse text = .ok w → Conveys (Meaning.delivery task w) es s) ∧
      ∀ e, Json.parse text = .error e → Conveys (Meaning.refusal task e) es s := by
  have hcommands : Command.ofMessage trigger = [.respond .data (Command.payload v)] := by
    rw [Command.ofMessage, htexts, List.flatMap_singleton, Command.ofText_data hexact]
  have hconveys := conveys_ofTask htrigger (by rw [hcommands]; exact Nat.le_refl 1) h hes
  constructor
  · intro hv
    have hpayload : Command.payload v = v.compact := Command.payload_of_not_string hv
    have hparse := Json.Value.parse_compact hwithin hexact hordered
    rwa [Meaning.ofTask_delivery (hpayload ▸ hparse) hcommands] at hconveys
  · rintro text rfl
    refine ⟨fun w hw => ?_, fun e he => ?_⟩
    · rwa [Meaning.ofTask_delivery hw hcommands] at hconveys
    · rwa [Meaning.ofTask_refusal he hcommands] at hconveys

theorem exists_undisturbed {delay : Nanos} {capacity rounds : Nat} {timestamp : String}
    (hcancelled : ((start delay capacity task {}).run timestamp rounds).cancelled = false)
    (hreading : ((start delay capacity task {}).run timestamp rounds).reading = true) :
    ∃ es, Course (fresh delay capacity task {}) es
      ((start delay capacity task {}).run timestamp rounds) ∧ Undisturbed es := by
  obtain ⟨es, hrun⟩ : ∃ es, Course (fresh delay capacity task {}) es
      ((start delay capacity task {}).run timestamp rounds) := course_start_run rounds
  refine ⟨es, hrun, fun hc => ?_, fun hl => ?_⟩
  · rw [hrun.along.cancelled.mpr hc] at hcancelled
    cases hcancelled
  · rw [hrun.along.left.mpr hl] at hreading
    cases hreading

theorem conveys_data_object :
    let v : Value := .object [("a, b", .array [.int 1, .string "(c) = \"d\""])]
    let trigger : TaskMessage := .userText ("respond(data, " ++ v.compact ++ ")")
    let task : Task := { id := "t", status := { state := .submitted }, history := [trigger] }
    v.Ordered ∧ Within 127 v ∧ v.Exact ∧
      ∃ es s, Course (fresh 0 1 task {}) es s ∧ Undisturbed es ∧ s.HasEnded ∧
        Conveys (Meaning.delivery task v) es s := by
  intro v trigger task
  have hordered : v.Ordered := by
    refine .object (List.pairwise_singleton ..) (List.forall_mem_singleton.mpr (.array ?_))
    exact List.forall_mem_cons.mpr ⟨.number _, List.forall_mem_singleton.mpr (.string _)⟩
  have hwithin : Within 127 v := by
    refine .object (List.forall_mem_singleton.mpr (.array ?_))
    exact List.forall_mem_cons.mpr ⟨.number _, List.forall_mem_singleton.mpr (.string _)⟩
  have hexact : v.Exact := by
    refine .object (List.forall_mem_singleton.mpr (.array ?_))
    have hone : (Value.int 1).Exact := .number (Json.Number.exact_int (by decide) (by decide))
    exact List.forall_mem_cons.mpr ⟨hone, List.forall_mem_singleton.mpr (.string _)⟩
  have hs : ((start 0 1 task {}).run "now" 20).producer.ending?.isSome = true ∧
      ((start 0 1 task {}).run "now" 20).cancelled = false ∧
        ((start 0 1 task {}).run "now" 20).reading = true := by
    decide +kernel
  obtain ⟨es, hrun, hes⟩ := exists_undisturbed hs.2.1 hs.2.2
  have hv : ∀ text, v ≠ .string text := by simp [v]
  have hconveys := (conveys_data hordered hwithin hexact rfl rfl hrun hes).1 hv
  exact ⟨hordered, hwithin, hexact, es, _, hrun, hes, hs.1, hconveys⟩

theorem conveys_data_not_string :
    let v : Value := .string "5"
    let trigger : TaskMessage := .userText "respond(data, \"5\")"
    let task : Task := { id := "t", status := { state := .submitted }, history := [trigger] }
    v.Ordered ∧ Within 127 v ∧ v.Exact ∧ trigger.texts = ["respond(data, " ++ v.compact ++ ")"] ∧
      ∃ es s, Course (fresh 0 1 task {}) es s ∧ Undisturbed es ∧ s.HasEnded ∧
        (emitted es).map Update.untimed = (Meaning.delivery task (.int 5)).updates ∧
        ¬ Conveys (Meaning.delivery task v) es s := by
  intro v trigger task
  have hs : ((start 0 1 task {}).run "now" 20).producer.ending? = some (.reached .completed) ∧
      ((start 0 1 task {}).run "now" 20).cancelled = false ∧
        ((start 0 1 task {}).run "now" 20).reading = true := by
    decide +kernel
  obtain ⟨es, hrun, hes⟩ := exists_undisturbed hs.2.1 hs.2.2
  have hcommands : Command.ofMessage trigger = [.respond .data "5"] := by decide +kernel
  have hmeaning : Meaning.ofTask task trigger = Meaning.delivery task (.int 5) :=
    Meaning.ofTask_delivery rfl hcommands
  have htrigger : task.history.getLast? = some trigger := rfl
  have hconveys := conveys_ofTask htrigger (by rw [hcommands]; exact Nat.le_refl 1) hrun hes
  have hupdates := (hconveys.ended _ hs.1).1
  rw [hmeaning] at hupdates
  refine ⟨.string _, .string _, .string _, by decide +kernel, es, _, hrun, hes, ?_, hupdates, ?_⟩
  · rw [HasEnded, hs.1]
    rfl
  · intro hstring
    have hother := (hstring.ended _ hs.1).1
    rw [hupdates] at hother
    revert hother
    decide +kernel

end Solo

end AgentGateway
