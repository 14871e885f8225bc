import AgentGateway.Store.Basic
import Mathlib.Data.List.Induction
import Mathlib.Data.List.Nodup

namespace AgentGateway

open TaskStore (addChunk)

def collect (chunks : List Artifact) (start : List Artifact) : List Artifact :=
  chunks.foldl (fun artifacts chunk => addChunk chunk artifacts) start

def partsOf (index : Nat) (chunks : List Artifact) : List Part :=
  (chunks.filter (·.index = index)).flatMap Artifact.parts

def partsAt (index : Nat) (artifacts : List Artifact) : List Part :=
  (artifacts.find? (·.index = index)).elim [] Artifact.parts

def begun (chunks : List Artifact) : List Nat :=
  (chunks.filter (!·.append)).map Artifact.index

/-- That the stored artifacts are those before and all chunks since, those of one index with their
parts one after the other. -/
def Keeps (before chunks stored : List Artifact) : Prop :=
  (∀ a ∈ before, a ∈ stored) ∧
    ∀ a ∈ chunks, ∃ b ∈ stored, b.index = a.index ∧ b.parts = partsOf a.index chunks

/-- Chunks of one part each, of which only those go on with an artifact whose index has come before.
-/
inductive Orderly : List Artifact → Prop
  | nil : Orderly []
  | snoc {chunks a} : Orderly chunks → (a.append = true → a.index ∈ chunks.map Artifact.index) →
      a.parts.length = 1 → Orderly (chunks ++ [a])

variable {chunks rest l : List Artifact} {a c : Artifact} {i : Nat}

theorem partsAt_cons :
    partsAt i (a :: l) = if a.index = i then a.parts else partsAt i l := by
  unfold partsAt
  by_cases h : a.index = i <;> simp [h]

theorem partsAt_addChunk : partsAt i (addChunk c l) =
    if c.index = i then if c.append then partsAt i l ++ c.parts else c.parts
    else partsAt i l := by
  induction l with
  | nil =>
      rw [addChunk, partsAt_cons]
      by_cases hi : c.index = i <;> simp [hi, partsAt]
  | cons a l ih =>
      rw [addChunk]
      by_cases ha : a.index = c.index
      · by_cases hc : c.append <;> by_cases hi : c.index = i <;> simp [ha, hc, hi, partsAt_cons]
      · rw [if_neg ha, partsAt_cons, ih, partsAt_cons]
        by_cases hai : a.index = i
        · have hci : c.index ≠ i := fun h => ha (hai.trans h.symm)
          simp [hai, hci]
        · simp [hai]

theorem mem_index_addChunk :
    i ∈ (addChunk c l).map Artifact.index ↔ i = c.index ∨ i ∈ l.map Artifact.index := by
  induction l with
  | nil => simp [addChunk]
  | cons a l ih =>
      rw [addChunk]
      by_cases ha : a.index = c.index
      · by_cases hc : c.append <;> simp [ha, hc]
      · simp only [ha, if_false, List.map_cons, List.mem_cons, ih]
        tauto

theorem nodup_addChunk (h : (l.map Artifact.index).Nodup) :
    ((addChunk c l).map Artifact.index).Nodup := by
  induction l with
  | nil => simp [addChunk]
  | cons a l ih =>
      simp only [List.map_cons, List.nodup_cons] at h
      rw [addChunk]
      by_cases ha : a.index = c.index
      · rw [if_pos ha]
        cases hc : c.append with
        | true => exact List.nodup_cons.mpr h
        | false => exact List.nodup_cons.mpr ⟨ha ▸ h.1, h.2⟩
      · rw [if_neg ha, List.map_cons, List.nodup_cons, mem_index_addChunk]
        exact ⟨not_or.mpr ⟨ha, h.1⟩, ih h.2⟩

theorem addChunk_addChunk (hc : c.append = true) (hi : c.index = a.index) :
    addChunk c (addChunk a l) =
      addChunk { a with parts := a.parts ++ c.parts, lastChunk := c.lastChunk } l := by
  induction l with
  | nil => simp [addChunk, hc, hi]
  | cons b l ih =>
      by_cases hb : b.index = a.index
      · by_cases ha : a.append <;> simp [addChunk, ha, hb, hc, hi]
      · simp [addChunk, hb, hi, ih]

theorem addChunk_fresh (h : c.index ∉ l.map Artifact.index) : addChunk c l = l ++ [c] := by
  induction l with
  | nil => rfl
  | cons a l ih =>
      simp only [List.map_cons, List.mem_cons, not_or] at h
      rw [addChunk, if_neg (Ne.symm h.1), ih h.2, List.cons_append]

theorem collect_append : collect (chunks ++ rest) l = collect rest (collect chunks l) :=
  List.foldl_append

theorem collect_snoc : collect (chunks ++ [c]) l = addChunk c (collect chunks l) :=
  collect_append

theorem collect_fresh (h : ((l ++ chunks).map Artifact.index).Nodup) :
    collect chunks l = l ++ chunks := by
  induction chunks generalizing l with
  | nil => simp [collect]
  | cons c chunks ih =>
      have hc : c.index ∉ l.map Artifact.index := by
        rw [List.map_append, List.nodup_append] at h
        exact fun hmem => h.2.2 _ hmem _ (by simp) rfl
      rw [collect, List.foldl_cons, ← collect, addChunk_fresh hc, ih (by simpa using h)]
      simp

theorem mem_index_collect : i ∈ (collect chunks l).map Artifact.index ↔
    i ∈ chunks.map Artifact.index ∨ i ∈ l.map Artifact.index := by
  induction chunks generalizing l with
  | nil => simp [collect]
  | cons c chunks ih =>
      rw [collect, List.foldl_cons, ← collect, ih, mem_index_addChunk]
      simp only [List.map_cons, List.mem_cons]
      tauto

theorem nodup_collect (h : (l.map Artifact.index).Nodup) :
    ((collect chunks l).map Artifact.index).Nodup := by
  induction chunks generalizing l with
  | nil => exact h
  | cons c chunks ih => exact ih (nodup_addChunk h)

theorem partsAt_of_mem (h : (l.map Artifact.index).Nodup) (ha : a ∈ l) :
    partsAt a.index l = a.parts := by
  induction l with
  | nil => cases ha
  | cons b l ih =>
      simp only [List.map_cons, List.nodup_cons] at h
      rw [partsAt_cons]
      rcases List.mem_cons.mp ha with rfl | ha
      · simp
      · have hne : b.index ≠ a.index := fun heq => h.1 (heq ▸ List.mem_map_of_mem ha)
        rw [if_neg hne, ih h.2 ha]

theorem partsOf_append :
    partsOf i (chunks ++ rest) = partsOf i chunks ++ partsOf i rest := by
  simp [partsOf]

theorem partsOf_cons : partsOf i (c :: chunks) = partsOf i [c] ++ partsOf i chunks := by
  rw [← partsOf_append, List.singleton_append]

theorem partsOf_single : partsOf i [c] = if c.index = i then c.parts else [] := by
  by_cases h : c.index = i <;> simp [partsOf, h]

theorem partsOf_eq_nil (h : i ∉ chunks.map Artifact.index) : partsOf i chunks = [] := by
  have hnone : chunks.filter (·.index = i) = [] := by
    rw [List.filter_eq_nil_iff]
    intro a ha hi
    exact h (by simpa using ⟨a, ha, by simpa using hi⟩)
  rw [partsOf, hnone, List.flatMap_nil]

namespace Orderly

theorem of_append (h : Orderly (chunks ++ rest)) : Orderly chunks := by
  induction rest using List.reverseRecOn with
  | nil => simpa using h
  | append_singleton rest a ih =>
      rw [← List.append_assoc] at h
      generalize hl : chunks ++ rest ++ [a] = l at h
      cases h with
      | nil => simp at hl
      | snoc h _ _ =>
          obtain ⟨rfl, -⟩ := List.append_inj' hl rfl
          exact ih h

theorem mem_begun (h : Orderly chunks) (hi : i ∈ chunks.map Artifact.index) : i ∈ begun chunks := by
  induction h with
  | nil => simp at hi
  | @snoc chunks a h happ _ ih =>
      simp only [begun, List.filter_append, List.map_append, List.mem_append] at hi ⊢
      rcases hi with hi | hi
      · exact .inl (ih hi)
      · obtain rfl : i = a.index := by simpa using hi
        cases hc : a.append with
        | true => exact .inl (ih (happ hc))
        | false => exact .inr (by simp [hc])

theorem parts_length (h : Orderly chunks) (ha : a ∈ chunks) : a.parts.length = 1 := by
  induction h with
  | nil => cases ha
  | snoc _ _ hlen ih =>
      rcases List.mem_append.mp ha with ha | ha
      · exact ih ha
      · obtain rfl : a = _ := by simpa using ha
        exact hlen

theorem partsAt_collect (h : Orderly chunks) (hnd : (begun chunks).Nodup) :
    partsAt i (collect chunks []) = partsOf i chunks := by
  induction h with
  | nil => rfl
  | @snoc chunks a h happ _ ih =>
      have hbegun : begun (chunks ++ [a]) = begun chunks ++ begun [a] := by simp [begun]
      rw [hbegun] at hnd
      have hih := ih hnd.of_append_left
      rw [collect_snoc, partsAt_addChunk, partsOf_append, partsOf_single, hih]
      by_cases hi : a.index = i
      · subst hi
        cases hc : a.append with
        | true => simp
        | false =>
            have hnew : a.index ∉ begun chunks := by
              intro hmem
              exact List.disjoint_of_nodup_append hnd hmem (by simp [begun, hc])
            have hnil := partsOf_eq_nil fun hmem => hnew (h.mem_begun hmem)
            simp [hnil]
      · simp [hi]

end Orderly

theorem length_partsAt_collect (i : Nat) (rest l : List Artifact) :
    (partsAt i (collect rest l)).length ≤ (partsAt i l).length + (partsOf i rest).length := by
  induction rest generalizing l with
  | nil => simp [collect]
  | cons c rest ih =>
      have hstep : (partsAt i (addChunk c l)).length ≤
          (partsAt i l).length + (partsOf i [c]).length := by
        rw [partsAt_addChunk, partsOf_single]
        by_cases hi : c.index = i
        · cases c.append <;> simp [hi]
        · simp [hi]
      have hrest := ih (addChunk c l)
      rw [partsOf_cons, List.length_append]
      exact Nat.le_trans hrest (by omega)

theorem length_partsOf_pos (h : Orderly chunks) (ha : a ∈ chunks) :
    0 < (partsOf a.index chunks).length := by
  obtain ⟨before, after, rfl⟩ := List.append_of_mem ha
  have hlen := h.parts_length ha
  have hsplit : before ++ a :: after = before ++ [a] ++ after := by simp
  rw [hsplit, partsOf_append, partsOf_append, partsOf_single, if_pos rfl]
  simp only [List.length_append]
  omega

theorem exists_lost (h : Orderly chunks) (hnd : ¬ (begun chunks).Nodup) :
    ∃ a ∈ chunks, (partsAt a.index (collect chunks [])).length <
      (partsOf a.index chunks).length := by
  induction h with
  | nil => exact absurd List.nodup_nil hnd
  | @snoc chunks c h happ hlen ih =>
      by_cases hold : (begun chunks).Nodup
      · have hc : c.append = false ∧ c.index ∈ begun chunks := by
          by_contra hcon
          refine hnd ?_
          have hbegun : begun (chunks ++ [c]) = begun chunks ++ begun [c] := by simp [begun]
          rw [hbegun]
          cases hc : c.append with
          | true => simpa [begun, hc] using hold
          | false =>
              have hnew : c.index ∉ begun chunks := fun hmem => hcon ⟨hc, hmem⟩
              have hsingle : begun [c] = [c.index] := by simp [begun, hc]
              rw [hsingle, List.nodup_append]
              exact ⟨hold, List.nodup_singleton _, by
                rintro i hi j hj rfl
                exact hnew (List.mem_singleton.mp hj ▸ hi)⟩
        obtain ⟨hc, hmem⟩ := hc
        obtain ⟨a, ha, hai⟩ := List.mem_map.mp hmem
        have hpos := length_partsOf_pos h (List.mem_of_mem_filter ha)
        refine ⟨c, by simp, ?_⟩
        rw [collect_snoc, partsAt_addChunk, partsOf_append, partsOf_single]
        simp only [if_true, hc, Bool.false_eq_true, if_false, List.length_append]
        rw [hai] at hpos
        omega
      · obtain ⟨a, ha, hlt⟩ := ih hold
        refine ⟨a, by simp [ha], ?_⟩
        have hle := length_partsAt_collect a.index [c] (collect chunks [])
        rw [collect_append, partsOf_append, List.length_append]
        omega

theorem keeps_collect_iff (h : Orderly (chunks ++ rest)) :
    Keeps [] (chunks ++ rest) (collect chunks []) ↔ rest = [] ∧ (begun (chunks ++ rest)).Nodup := by
  have hnodup : ((collect chunks []).map Artifact.index).Nodup := nodup_collect List.nodup_nil
  constructor
  · rintro ⟨-, hkeep⟩
    have hlen {a : Artifact} (ha : a ∈ chunks ++ rest) :
        (partsOf a.index (chunks ++ rest)).length ≤
          (partsAt a.index (collect chunks [])).length := by
      obtain ⟨b, hb, hi, hparts⟩ := hkeep a ha
      have hat : partsAt a.index (collect chunks []) = partsOf a.index (chunks ++ rest) := by
        rw [← hparts, ← hi, partsAt_of_mem hnodup hb]
      exact Nat.le_of_eq (congrArg List.length hat.symm)
    have hrest : rest = [] := by
      cases rest with
      | nil => rfl
      | cons a rest =>
          have hle := hlen (a := a) (by simp)
          have hfold := length_partsAt_collect a.index chunks []
          have hpos : 0 < (partsOf a.index (a :: rest)).length := by
            have ha := h.parts_length (a := a) (by simp)
            rw [partsOf_cons, partsOf_single, if_pos rfl, List.length_append]
            omega
          rw [partsOf_append, List.length_append] at hle
          have hnil : (partsAt a.index []).length = 0 := rfl
          omega
    subst hrest
    refine ⟨rfl, ?_⟩
    by_contra hnd
    obtain ⟨a, ha, hlt⟩ := exists_lost h hnd
    rw [List.append_nil] at hlen hlt ha
    exact absurd (hlen ha) (by omega)
  · rintro ⟨rfl, hnd⟩
    rw [List.append_nil] at h hnd ⊢
    refine ⟨by simp, fun a ha => ?_⟩
    have hmem : a.index ∈ (collect chunks []).map Artifact.index :=
      mem_index_collect.mpr (.inl (List.mem_map_of_mem ha))
    obtain ⟨b, hb, hi⟩ := List.mem_map.mp hmem
    refine ⟨b, hb, hi, ?_⟩
    rw [← partsAt_of_mem hnodup hb, hi, h.partsAt_collect hnd]

end AgentGateway
