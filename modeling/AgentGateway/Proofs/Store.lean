import AgentGateway.Proofs.Lookup

namespace AgentGateway

theorem bind_eq_ok {ε α β : Type} {x : Except ε α} {f : α → Except ε β} {b : β} :
    x >>= f = .ok b ↔ ∃ a, x = .ok a ∧ f a = .ok b := by
  cases x <;> simp [bind, Except.bind]

namespace TaskEntry

def fold (max : Nat) (timestamp : String) (u : Update) (e : TaskEntry) : TaskEntry :=
  if e.task.state.isTerminal then e else { e with task := TaskStore.fold max timestamp u e.task }

def finish (ending : Ending) (timestamp : String) (e : TaskEntry) : TaskEntry :=
  ⟨TaskStore.conclude ending timestamp e.task, none⟩

def cancel (timestamp : String) (e : TaskEntry) : TaskEntry :=
  { e with task := { e.task with status := ⟨.canceled, none, some timestamp⟩ } }

end TaskEntry

namespace TaskStore

variable {s s' : TaskStore} {id q timestamp : String} {e : TaskEntry} {u : Update}

theorem find?_update : (s.update id u timestamp).find? q =
    if q = id then (s.find? id).map (TaskEntry.fold s.maxHistory timestamp u) else s.find? q := by
  unfold update TaskEntry.fold
  cases h : s.find? id with
  | none => by_cases hq : q = id <;> simp [hq, h]
  | some e =>
      by_cases hq : q = id <;> by_cases ht : e.task.state.isTerminal <;> simp [hq, ht, h]

theorem find?_finish {ending : Ending} : (s.finish id ending timestamp).2.find? q =
    if q = id then (s.find? id).map (TaskEntry.finish ending timestamp) else s.find? q := by
  unfold finish TaskEntry.finish
  cases h : s.find? id with
  | none => by_cases hq : q = id <;> simp [hq, h]
  | some e => by_cases hq : q = id <;> simp [hq]

@[simp] theorem maxHistory_update : (s.update id u timestamp).maxHistory = s.maxHistory := by
  unfold update
  split
  · rfl
  · split <;> rfl

@[simp] theorem maxHistory_finish {ending : Ending} :
    (s.finish id ending timestamp).2.maxHistory = s.maxHistory := by
  unfold finish
  split <;> rfl

theorem conclude_of_terminal {t : Task} {ending : Ending} (h : t.state.isTerminal = true) :
    conclude ending timestamp t = t := by
  unfold conclude
  exact if_pos h

theorem cancel_spec {task : Task} {token : Option Token}
    (h : s.cancel id timestamp = .ok (task, token, s')) :
    ∃ e, s.find? id = some e ∧ e.task.state.isTerminal = false ∧ token = e.token ∧
      ∀ q, s'.find? q = if q = id then some (e.cancel timestamp) else s.find? q := by
  unfold cancel at h
  split at h
  · cases h
  · rename_i e he
    split at h
    · cases h
    · rename_i ht
      cases h
      exact ⟨e, he, by simpa using ht, rfl, fun q => find?_put⟩

theorem send_spec {p : TaskSendParams} {headers : List (String × String)} {k : Token} {task : Task}
    (h : s.send p headers k timestamp = .ok (task, s')) :
    (∀ q, s'.find? q = if q = p.id then some ⟨task, some k⟩ else s.find? q) ∧
      ((s.find? p.id = none ∧ create p headers timestamp = .ok task) ∨
        ∃ e, s.find? p.id = some e ∧ e.token = none ∧ e.task.state.isTerminal = false ∧
          task = resume s.maxHistory p e.task) := by
  unfold send at h
  split at h
  · rename_i hnone
    obtain ⟨t, ht, h⟩ := bind_eq_ok.mp h
    cases h
    exact ⟨fun q => find?_put, .inl ⟨hnone, ht⟩⟩
  · rename_i e he
    split at h
    · cases h
    · rename_i ht
      split at h
      · cases h
      · rename_i hk
        cases h
        exact ⟨fun q => find?_put, .inr ⟨e, he, by simpa using hk, by simpa using ht, rfl⟩⟩

theorem maxHistory_send {p : TaskSendParams} {headers : List (String × String)} {k : Token}
    {task : Task} (h : s.send p headers k timestamp = .ok (task, s')) :
    s'.maxHistory = s.maxHistory := by
  unfold send at h
  split at h
  · obtain ⟨t, -, h⟩ := bind_eq_ok.mp h
    cases h
    rfl
  · split at h
    · cases h
    · split at h <;> cases h
      rfl

theorem maxHistory_cancel {task : Task} {token : Option Token}
    (h : s.cancel id timestamp = .ok (task, token, s')) : s'.maxHistory = s.maxHistory := by
  unfold cancel at h
  split at h
  · cases h
  · split at h <;> cases h
    rfl

theorem create_spec {p : TaskSendParams} {headers : List (String × String)} {task : Task}
    (h : create p headers timestamp = .ok task) :
    task.id = p.id ∧ task.state = .submitted ∧ task.artifacts = [] := by
  obtain ⟨metadata, -, h⟩ := bind_eq_ok.mp h
  cases h
  exact ⟨rfl, rfl, rfl⟩

section History

variable {max : Nat} {a b l : List TaskMessage} {x : TaskMessage}

theorem length_trim : (trim max l).length ≤ max := by
  rw [trim, List.length_drop]
  omega

theorem trim_of_length_le (h : l.length ≤ max) : trim max l = l := by
  rw [trim, Nat.sub_eq_zero_of_le h, List.drop_zero]

theorem trim_trim_append : trim max (trim max a ++ b) = trim max (a ++ b) := by
  have hle : a.length - max ≤ a.length := Nat.sub_le _ _
  rw [trim, trim, trim, ← List.drop_append_of_le_length hle, List.drop_drop]
  congr 1
  simp only [List.length_drop, List.length_append]
  omega

theorem getLast?_trim (h : 1 ≤ max) : (trim max (l ++ [x])).getLast? = some x := by
  rw [trim, List.drop_append_of_le_length (by simp; omega), List.getLast?_concat]

def historyOf (id : String) (s : TaskStore) : List TaskMessage :=
  (s.find? id).elim [] (·.task.history)

def artifactsOf (id : String) (s : TaskStore) : List Artifact :=
  (s.find? id).elim [] (·.task.artifacts)

theorem history_of_send {p : TaskSendParams} {headers : List (String × String)} {k : Token}
    {task : Task} (hmax : 1 ≤ s.maxHistory)
    (h : s.send p headers k timestamp = .ok (task, s')) :
    task.history = trim s.maxHistory (s.historyOf p.id ++ [p.message]) ∧
      task.artifacts = s.artifactsOf p.id := by
  obtain ⟨-, ⟨hnone, hcreate⟩ | ⟨e, he, -, -, rfl⟩⟩ := send_spec h
  · obtain ⟨metadata, -, hcreate⟩ := bind_eq_ok.mp hcreate
    cases hcreate
    simp [historyOf, artifactsOf, hnone, Task.new, trim_of_length_le (l := [p.message]) hmax]
  · simp [historyOf, artifactsOf, he, resume]

end History

end TaskStore

end AgentGateway
