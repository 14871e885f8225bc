import AgentGateway.Invocation.Plan
import AgentGateway.Proofs.Ended
import Mathlib.Data.List.DropRight
/-!
The history of a task as the tail of all that has been said about it. The conversation is told by
what is asked of the store and grows without end; the store keeps its last entries.
-/

namespace AgentGateway

/-- What an update says. What is told of work in progress is not part of the conversation. -/
def Update.remarks : Update → List TaskMessage
  | .status e => if e.status.state = .working then [] else e.status.message.toList
  | _ => []

namespace TaskStore

/-- What a request adds to the conversation about a task: the message that is sent to it, if it is
accepted, or what an update says, if the task has not ended. -/
def said (id : String) (s : TaskStore) : StoreRequest → List TaskMessage
  | .send p headers token timestamp =>
    if p.id = id ∧ (s.send p headers token timestamp).isOk then [p.message] else []
  | .update q u _ =>
    if q = id ∧ (s.find? id).any (fun e => !e.task.state.isTerminal) then u.remarks else []
  | .finish .. | .cancel .. | .get .. => []

def conversation (id : String) : TaskStore → List StoreRequest → List TaskMessage
  | _, [] => []
  | s, r :: rs => s.said id r ++ conversation id (s.after r) rs

variable {s : TaskStore} {id timestamp : String} {max : Nat} {u : Update} {t : Task}

theorem history_fold (h : t.history.length ≤ max) :
    (fold max timestamp u t).history = trim max (t.history ++ u.remarks) := by
  cases u with
  | artifact | error => simp [fold, Update.remarks, trim_of_length_le h]
  | status e =>
      obtain ⟨q, ⟨state, message, time⟩, final⟩ := e
      cases message with
      | none => simp [fold, withStatus, Update.remarks, trim_of_length_le h]
      | some m =>
          by_cases hw : state = .working <;>
            simp [fold, withStatus, Update.remarks, hw, trim_of_length_le h]

theorem history_conclude {ending : Ending} :
    (conclude ending timestamp t).history = t.history := by
  unfold conclude
  split
  · rfl
  · split <;> rfl

theorem historyOf_of_find? {s' : TaskStore} (h : s'.find? id = s.find? id) :
    s'.historyOf id = s.historyOf id := by rw [historyOf, h, historyOf]

theorem historyOf_send {p : TaskSendParams} {headers : List (String × String)} {token : Token}
    {task : Task} {s' : TaskStore} (hmax : 1 ≤ s.maxHistory)
    (h : s.send p headers token timestamp = .ok (task, s')) :
    s'.historyOf p.id = trim s.maxHistory (s.historyOf p.id ++ [p.message]) := by
  obtain ⟨hfind, -⟩ := send_spec h
  rw [historyOf, hfind, if_pos rfl]
  exact (history_of_send hmax h).1

theorem historyOf_update (hlen : (s.historyOf id).length ≤ s.maxHistory)
    (hopen : (s.find? id).any (fun e => !e.task.state.isTerminal) = true) :
    (s.update id u timestamp).historyOf id = trim s.maxHistory (s.historyOf id ++ u.remarks) := by
  obtain ⟨e, he, hopen⟩ := (Option.any_eq_true ..).mp hopen
  have hhistory : s.historyOf id = e.task.history := by rw [historyOf, he]; rfl
  rw [historyOf, find?_update, if_pos rfl, he, Option.map_some, TaskEntry.fold,
    if_neg (by simpa using hopen), hhistory]
  exact history_fold (hhistory ▸ hlen)

theorem historyOf_update_ended
    (hended : ¬ (s.find? id).any (fun e => !e.task.state.isTerminal) = true) :
    (s.update id u timestamp).historyOf id = s.historyOf id := by
  refine historyOf_of_find? ?_
  rw [find?_update, if_pos rfl]
  cases he : s.find? id with
  | none => rfl
  | some e =>
      have ht : e.task.state.isTerminal = true := by simpa [he] using hended
      rw [Option.map_some, TaskEntry.fold, if_pos ht]

theorem historyOf_finish {ending : Ending} :
    (s.finish id ending timestamp).2.historyOf id = s.historyOf id := by
  rw [historyOf, find?_finish, if_pos rfl, historyOf]
  cases s.find? id with
  | none => rfl
  | some e => exact history_conclude

theorem historyOf_cancel {task : Task} {token : Option Token} {s' : TaskStore}
    (h : s.cancel id timestamp = .ok (task, token, s')) : s'.historyOf id = s.historyOf id := by
  obtain ⟨e, he, -, -, hfind⟩ := cancel_spec h
  rw [historyOf, hfind, if_pos rfl, historyOf, he]
  rfl

theorem maxHistory_after (r : StoreRequest) : (s.after r).maxHistory = s.maxHistory := by
  cases r with
  | send p headers token timestamp =>
      simp only [after]
      cases h : s.send p headers token timestamp with
      | error f => rfl
      | ok x => exact maxHistory_send h
  | update q u timestamp => exact maxHistory_update
  | finish q ending timestamp => exact maxHistory_finish
  | cancel q timestamp =>
      simp only [after]
      cases h : s.cancel q timestamp with
      | error f => rfl
      | ok x => exact maxHistory_cancel h
  | get q n => rfl

theorem historyOf_after (hmax : 1 ≤ s.maxHistory) (hlen : (s.historyOf id).length ≤ s.maxHistory)
    (r : StoreRequest) :
    (s.after r).historyOf id = trim s.maxHistory (s.historyOf id ++ s.said id r) := by
  have hkept {s' : TaskStore} (h : s'.historyOf id = s.historyOf id) :
      s'.historyOf id = trim s.maxHistory (s.historyOf id ++ []) := by
    rw [List.append_nil, trim_of_length_le hlen, h]
  cases r with
  | send p headers token timestamp =>
      simp only [after, said]
      cases h : s.send p headers token timestamp with
      | error f =>
          rw [if_neg (by simp [Except.isOk, Except.toBool])]
          exact hkept rfl
      | ok x =>
          by_cases hid : p.id = id
          · rw [if_pos ⟨hid, rfl⟩, ← hid]
            exact historyOf_send hmax h
          · rw [if_neg fun hc => hid hc.1]
            obtain ⟨hfind, -⟩ := send_spec h
            exact hkept (historyOf_of_find? ((hfind id).trans (if_neg (Ne.symm hid))))
  | update q u timestamp =>
      simp only [after, said]
      by_cases hid : q = id
      · subst hid
        split
        · rename_i hopen
          exact historyOf_update hlen hopen.2
        · rename_i hended
          exact hkept (historyOf_update_ended fun h => hended ⟨rfl, h⟩)
      · rw [if_neg fun hc => hid hc.1]
        exact hkept (historyOf_of_find? (find?_update.trans (if_neg (Ne.symm hid))))
  | finish q ending timestamp =>
      by_cases hid : q = id
      · subst hid
        exact hkept historyOf_finish
      · exact hkept (historyOf_of_find? (find?_finish.trans (if_neg (Ne.symm hid))))
  | cancel q timestamp =>
      simp only [after, said]
      cases h : s.cancel q timestamp with
      | error f => exact hkept rfl
      | ok x =>
          by_cases hid : q = id
          · subst hid
            exact hkept (historyOf_cancel h)
          · obtain ⟨e, -, -, -, hfind⟩ := cancel_spec h
            exact hkept (historyOf_of_find? ((hfind id).trans (if_neg (Ne.symm hid))))
  | get q n => exact hkept rfl

theorem maxHistory_afterAll (rs : List StoreRequest) :
    (s.afterAll rs).maxHistory = s.maxHistory := by
  induction rs generalizing s with
  | nil => rfl
  | cons r rs ih => exact ih.trans (maxHistory_after r)

theorem historyOf_afterAll (hmax : 1 ≤ s.maxHistory) {log : List TaskMessage}
    (h : s.historyOf id = trim s.maxHistory log) (rs : List StoreRequest) :
    (s.afterAll rs).historyOf id = trim s.maxHistory (log ++ s.conversation id rs) := by
  induction rs generalizing s log with
  | nil => rw [conversation, List.append_nil]; exact h
  | cons r rs ih =>
      have hnext : (s.after r).historyOf id =
          trim (s.after r).maxHistory (log ++ s.said id r) := by
        rw [maxHistory_after, historyOf_after hmax (h ▸ length_trim), h, trim_trim_append]
      have hrest := ih (by rw [maxHistory_after]; exact hmax) hnext
      rw [maxHistory_after, List.append_assoc] at hrest
      exact hrest

theorem get_some {e : TaskEntry} (he : s.find? id = some e) (n : Option Nat) :
    s.get id n = .ok (e.task.withHistoryLength n) := by rw [get, he]

/-- The history of a task is what was said about it last, up to the cap; a reader gets the last of
it. A message that is accepted is the last that was said, and its commands are carried out. -/
theorem history_tail (max : Nat) (rs : List StoreRequest) (id : String) :
    let s := (empty max).afterAll rs
    let log := (empty max).conversation id rs
    let cap := Nat.max max 1
    (s.find? id = none → log = []) ∧
      (∀ e, s.find? id = some e → e.task.history = log.rtake cap ∧ s.get id none = .ok e.task ∧
        ∀ n, s.get id (some n) = .ok { e.task with history := (log.rtake cap).rtake n }) ∧
      ∀ p headers token timestamp task s', p.id = id →
        s.send p headers token timestamp = .ok (task, s') →
        task.history = (log ++ [p.message]).rtake cap ∧ s'.find? id = some ⟨task, some token⟩ ∧
          task.history.getLast? = some p.message ∧
          ∃ first, Plan.ofTask task = (Plan.ofCommands task p.message (Command.ofMessage p.message)
            { nextIndex := task.nextArtifactIndex }).after [first] := by
  intro s log cap
  have hcap : s.maxHistory = cap := maxHistory_afterAll rs
  have hone : 1 ≤ cap := Nat.le_max_right ..
  have hempty : (empty max).historyOf id = trim (empty max).maxHistory [] := by
    simp [historyOf, find?, empty, trim]
  have htail : s.historyOf id = log.rtake cap := historyOf_afterAll hone hempty rs
  refine ⟨fun hnone => ?_, fun e he => ?_, fun p headers token timestamp task s' hid hsend => ?_⟩
  · -- a cap of at least one leaves nothing only of nothing
    have hnil : log.rtake cap = [] := by rw [← htail, historyOf, hnone]; rfl
    have hlength := congrArg List.length hnil
    rw [List.rtake, List.length_drop, List.length_nil] at hlength
    exact List.length_eq_zero_iff.mp (by omega)
  · have hhistory : e.task.history = log.rtake cap := by rw [← htail, historyOf, he]; rfl
    exact ⟨hhistory, get_some he none, fun n => by rw [get_some he, ← hhistory]; rfl⟩
  · subst hid
    have hhistory : task.history = (log ++ [p.message]).rtake cap := by
      rw [(history_of_send (hcap ▸ hone) hsend).1, htail, hcap]
      exact trim_trim_append
    have hlast : task.history.getLast? = some p.message := hhistory ▸ getLast?_trim hone
    refine ⟨hhistory, ((send_spec hsend).1 _).trans (if_pos rfl), hlast, ?_⟩
    unfold Plan.ofTask
    rw [hlast]
    exact ⟨_, rfl⟩

theorem history_tail_one :
    let p (text : String) : TaskSendParams := { id := "t", message := .userText text }
    let asked : TaskStatus := { state := .inputRequired, message := some (.agentText "more?") }
    let rs : List StoreRequest := [.send (p "ask(\"more?\")") [] 0 "",
      .update "t" (.status ⟨"t", asked, true⟩) "", .finish "t" (.reached .inputRequired) ""]
    ∃ e task s', ((empty 0).afterAll rs).find? "t" = some e ∧
      e.task.history = [.agentText "more?"] ∧
      ((empty 0).afterAll rs).send (p "nothing") [] 1 "" = .ok (task, s') ∧
      task.history = [.userText "nothing"] := by
  intro p asked rs
  obtain ⟨-, hstored, hsent⟩ := history_tail 0 rs "t"
  have hfind : (((empty 0).afterAll rs).find? "t").isSome = true := by decide +kernel
  have hsend : (((empty 0).afterAll rs).send (p "nothing") [] 1 "").isOk = true := by
    decide +kernel
  obtain ⟨e, he⟩ := Option.isSome_iff_exists.mp hfind
  cases hx : ((empty 0).afterAll rs).send (p "nothing") [] 1 "" with
  | error f => simp [hx, Except.isOk, Except.toBool] at hsend
  | ok x =>
      obtain ⟨hlog, -⟩ := hsent (p "nothing") [] 1 "" x.1 x.2 rfl hx
      exact ⟨e, x.1, x.2, he, (hstored e he).1.trans (by decide +kernel), rfl,
        hlog.trans (by decide +kernel)⟩

end TaskStore

end AgentGateway
