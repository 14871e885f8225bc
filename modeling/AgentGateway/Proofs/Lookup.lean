import AgentGateway.Store.Basic
import Mathlib.Logic.Function.Basic

namespace AgentGateway

section Lookup

variable {α β : Type} [DecidableEq α]

theorem lookup_cons_key (q a : α) (b : β) (l : List (α × β)) :
    ((a, b) :: l).lookup q = if q = a then some b else l.lookup q := by
  rw [List.lookup_cons]
  by_cases hq : q = a
  · simp [hq]
  · have hne : (q == a) = false := beq_eq_false_iff_ne.mpr hq
    simp only [hne, hq, if_false]

theorem lookup_map_key (f : β → β) (k q : α) (l : List (α × β)) :
    (l.map fun (a, b) => if a = k then (a, f b) else (a, b)).lookup q =
      if q = k then (l.lookup q).map f else l.lookup q := by
  induction l with
  | nil => simp
  | cons e l ih =>
      obtain ⟨a, b⟩ := e
      rw [List.map_cons]
      by_cases ha : a = k
      · simp only [ha, if_true, lookup_cons_key, ih]
        by_cases hq : q = k <;> simp [hq]
      · simp only [ha, if_false, lookup_cons_key, ih]
        by_cases hq : q = a
        · simp [hq, ha]
        · simp [hq]

theorem lookup_filter_key (k q : α) (l : List (α × β)) :
    (l.filter (·.1 ≠ k)).lookup q = if q = k then none else l.lookup q := by
  induction l with
  | nil => simp
  | cons e l ih =>
      obtain ⟨a, b⟩ := e
      by_cases ha : a = k
      · rw [List.filter_cons_of_neg (by simpa using ha), ih]
        by_cases hq : q = k <;> simp [hq, ha, lookup_cons_key]
      · rw [List.filter_cons_of_pos (by simpa using ha), lookup_cons_key, ih]
        by_cases hq : q = a <;> simp [hq, ha, lookup_cons_key]

theorem lookup_snoc {k q : α} {b : β} {l : List (α × β)} (h : l.lookup k = none) :
    (l ++ [(k, b)]).lookup q = if q = k then some b else l.lookup q := by
  rw [List.lookup_append, lookup_cons_key]
  by_cases hq : q = k
  · simp [hq, h]
  · simp [hq]

end Lookup

namespace KeyOrder

variable {β : Type}

theorem lookup_insert (key k : String) (v : β) (l : List (String × β)) :
    (insert key v l).lookup k = if k = key then some v else l.lookup k := by
  induction l with
  | nil => simp [insert, lookup_cons_key]
  | cons e l ih =>
      obtain ⟨a, b⟩ := e
      rw [insert]
      by_cases hlt : key < a
      · simp [hlt, lookup_cons_key]
      · by_cases heq : key = a
        · simp only [heq, if_true, if_neg (String.lt_irrefl a), lookup_cons_key]
          by_cases hk : k = a <;> simp [hk]
        · simp only [hlt, heq, if_false, lookup_cons_key, ih]
          by_cases hk : k = key
          · simp [hk, heq]
          · simp [hk]

theorem insert_insert {key : String} {v w : β} {l : List (String × β)} :
    insert key w (insert key v l) = insert key w l := by
  have hself {l : List (String × β)} : insert key w ((key, v) :: l) = (key, w) :: l := by
    rw [insert, if_neg (String.lt_irrefl key), if_pos rfl]
  induction l with
  | nil => exact hself
  | cons e l ih =>
      obtain ⟨a, u⟩ := e
      simp only [insert]
      split
      · exact hself
      · rename_i hlt
        split
        · exact hself
        · rename_i hne
          rw [insert, if_neg hlt, if_neg hne, ih]

end KeyOrder

namespace TaskStore

variable {id q : String} {e : TaskEntry} {s : TaskStore}

@[simp] theorem find?_put : (s.put id e).find? q = if q = id then some e else s.find? q :=
  KeyOrder.lookup_insert id q e s.entries

theorem find?_put_self : (s.put id e).find? id = some e := find?_put.trans (if_pos rfl)

theorem put_put {e' : TaskEntry} : (s.put id e).put id e' = s.put id e' := by
  simp only [put, KeyOrder.insert_insert]

end TaskStore

end AgentGateway
