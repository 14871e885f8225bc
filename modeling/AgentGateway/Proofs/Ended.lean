import AgentGateway.Proofs.Store

namespace AgentGateway

inductive StoreRequest where
  | send (p : TaskSendParams) (headers : List (String × String)) (token : Token)
      (timestamp : String)
  | update (id : String) (u : Update) (timestamp : String)
  | finish (id : String) (ending : Ending) (timestamp : String)
  | cancel (id timestamp : String)
  | get (id : String) (historyLength : Option Nat)

namespace TaskStore

def after (s : TaskStore) : StoreRequest → TaskStore
  | .send p headers token timestamp =>
    match s.send p headers token timestamp with
    | .ok (_, s') => s'
    | .error _ => s
  | .update id u timestamp => s.update id u timestamp
  | .finish id ending timestamp => (s.finish id ending timestamp).2
  | .cancel id timestamp =>
    match s.cancel id timestamp with
    | .ok (_, _, s') => s'
    | .error _ => s
  | .get _ _ => s

def afterAll (s : TaskStore) (rs : List StoreRequest) : TaskStore := rs.foldl after s

def HasEnded (s : TaskStore) (task : Task) (id : String) : Prop :=
  task.state.isTerminal = true ∧ ∃ token, s.find? id = some ⟨task, token⟩

variable {s s' : TaskStore} {id timestamp : String} {task : Task}

namespace HasEnded

theorem send (h : s.HasEnded task id) {p : TaskSendParams} {headers : List (String × String)}
    {token : Token} (hp : p.id = id) : s.send p headers token timestamp =
      .error (.invalidRequest
        ("Task " ++ id ++ " is " ++ task.state.name ++ " and cannot be resumed")) := by
  obtain ⟨ht, _, hfind⟩ := h
  subst hp
  simp [TaskStore.send, hfind, ht]

theorem cancel (h : s.HasEnded task id) :
    s.cancel id timestamp = .error (.taskNotCancelable id) := by
  obtain ⟨ht, _, hfind⟩ := h
  simp [TaskStore.cancel, hfind, ht]

theorem of_find? (h : s.HasEnded task id) (hfind : s'.find? id = s.find? id) :
    s'.HasEnded task id := by
  obtain ⟨ht, token, hold⟩ := h
  exact ⟨ht, token, hfind.trans hold⟩

theorem after (h : s.HasEnded task id) (r : StoreRequest) : (s.after r).HasEnded task id := by
  have ⟨ht, token, hfind⟩ := h
  cases r with
  | send p headers k timestamp =>
      rw [TaskStore.after]
      cases hsend : s.send p headers k timestamp with
      | error f => exact h
      | ok x =>
          have hne : p.id ≠ id := by
            intro hp
            rw [h.send hp] at hsend
            cases hsend
          exact h.of_find? (((send_spec hsend).1 id).trans (if_neg hne.symm))
  | update q u timestamp =>
      by_cases hq : id = q
      · have hfold : s.find? q = some ⟨task, token⟩ := hq ▸ hfind
        refine ⟨ht, token, ?_⟩
        rw [TaskStore.after, find?_update, if_pos hq, hfold]
        exact congrArg some (if_pos ht)
      · exact h.of_find? (find?_update.trans (if_neg hq))
  | finish q ending timestamp =>
      by_cases hq : id = q
      · have hfin : s.find? q = some ⟨task, token⟩ := hq ▸ hfind
        refine ⟨ht, none, ?_⟩
        rw [TaskStore.after, find?_finish, if_pos hq, hfin, Option.map_some, TaskEntry.finish,
          conclude_of_terminal ht]
      · exact h.of_find? (find?_finish.trans (if_neg hq))
  | cancel q timestamp =>
      rw [TaskStore.after]
      cases hcancel : s.cancel q timestamp with
      | error f => exact h
      | ok x =>
          have hne : q ≠ id := by
            intro hq
            rw [hq, h.cancel] at hcancel
            cases hcancel
          obtain ⟨e, -, -, -, hother⟩ := cancel_spec hcancel
          exact h.of_find? ((hother id).trans (if_neg hne.symm))
  | get q n => exact h

theorem afterAll (h : s.HasEnded task id) (rs : List StoreRequest) :
    (s.afterAll rs).HasEnded task id := by
  induction rs generalizing s with
  | nil => exact h
  | cons r rs ih => exact ih (h.after r)

end HasEnded

/-- A task that has ended is the same after any requests, and is refused to any message and any
cancellation that comes after them. -/
theorem ended_stays (rs : List StoreRequest) {token : Option Token}
    (hs : s.find? id = some ⟨task, token⟩) (ht : task.state.isTerminal = true) :
    (∃ token', (s.afterAll rs).find? id = some ⟨task, token'⟩) ∧
      (∀ p headers k timestamp, p.id = id → (s.afterAll rs).send p headers k timestamp =
        .error (.invalidRequest
          ("Task " ++ id ++ " is " ++ task.state.name ++ " and cannot be resumed"))) ∧
      ∀ timestamp, (s.afterAll rs).cancel id timestamp = .error (.taskNotCancelable id) := by
  have h : (s.afterAll rs).HasEnded task id := HasEnded.afterAll ⟨ht, token, hs⟩ rs
  exact ⟨h.2, fun _ _ _ _ hp => h.send hp, fun _ => h.cancel⟩

theorem ended_stays_canceled :
    let message : TaskMessage := .userText "wait(5s)"
    let p : TaskSendParams := { id := "t", message }
    let s := (empty 3).afterAll [.send p [] 0 "early", .cancel "t" "early"]
    let late : List StoreRequest :=
      [.update "t" (.status ⟨"t", { state := .working }, false⟩) "late",
        .finish "t" (.failed .cancelled) "late", .send p [] 1 "late", .cancel "t" "late"]
    ∃ task, s.find? "t" = some ⟨task, some 0⟩ ∧ task.state = .canceled ∧
      (∃ token, (s.afterAll late).find? "t" = some ⟨task, token⟩) ∧
      (s.afterAll late).cancel "t" "later" = .error (.taskNotCancelable "t") := by
  intro message p s late
  have hs : (s.find? "t").any (fun e => e.token = some 0 ∧ e.task.state = .canceled) = true := by
    decide +kernel
  rw [Option.any_eq_true] at hs
  obtain ⟨⟨task, token⟩, hfind, hs⟩ := hs
  obtain ⟨rfl, hstate⟩ := of_decide_eq_true hs
  have hend := ended_stays late hfind (by rw [hstate]; rfl)
  exact ⟨task, hfind, hstate, hend.1, hend.2.2 "later"⟩

end TaskStore

end AgentGateway
