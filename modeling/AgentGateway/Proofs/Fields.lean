import AgentGateway.Json.Reader
import AgentGateway.Proofs.Store

namespace AgentGateway

section Lookup

variable {α β : Type} [DecidableEq α] {l : List (α × β)} {k : α} {v : β}

theorem mem_of_lookup (h : l.lookup k = some v) : (k, v) ∈ l := by
  induction l with
  | nil => cases h
  | cons e l ih =>
      rw [lookup_cons_key] at h
      split at h
      · rename_i hk
        subst hk
        cases h
        exact List.mem_cons_self
      · exact List.mem_cons_of_mem e (ih h)

theorem lookup_of_mem (h : (l.map Prod.fst).Nodup) (hmem : (k, v) ∈ l) : l.lookup k = some v := by
  induction l with
  | nil => cases hmem
  | cons e l ih =>
      obtain ⟨hnot, hrest⟩ := List.nodup_cons.mp h
      rw [lookup_cons_key]
      rcases List.mem_cons.mp hmem with rfl | hmem
      · exact if_pos rfl
      · have hne : k ≠ e.1 := fun heq => hnot (heq ▸ List.mem_map_of_mem hmem)
        rw [if_neg hne, ih hrest hmem]

theorem lookup_eq_some_iff_mem (h : (l.map Prod.fst).Nodup) :
    l.lookup k = some v ↔ (k, v) ∈ l :=
  ⟨mem_of_lookup, lookup_of_mem h⟩

theorem lookup_eq_none_of_notMem (h : k ∉ l.map Prod.fst) : l.lookup k = none := by
  refine List.lookup_eq_none_iff.mpr fun e he => ?_
  exact bne_iff_ne.mpr fun heq => h (heq ▸ List.mem_map_of_mem he)

end Lookup

namespace KeyOrder

variable {β : Type} {l l' : List (String × β)} {k : String} {v : β}

theorem lt_of_not_lt {a b : String} (h : ¬ a < b) (hne : a ≠ b) : b < a :=
  String.not_le.mp fun hle => hne (String.le_antisymm hle (String.not_lt.mp h))

def Ascends (l : List (String × β)) : Prop := l.Pairwise fun a b => a.1 < b.1

theorem mem_insert {e : String × β} (h : e ∈ insert k v l) : e = (k, v) ∨ e ∈ l := by
  induction l with
  | nil => exact .inl (List.mem_singleton.mp h)
  | cons a l ih =>
      rw [insert] at h
      split at h
      · exact List.mem_cons.mp h
      · split at h
        · exact (List.mem_cons.mp h).imp_right (List.mem_cons_of_mem a)
        · rcases List.mem_cons.mp h with rfl | h
          · exact .inr List.mem_cons_self
          · exact (ih h).imp_right (List.mem_cons_of_mem a)

theorem Ascends.insert (h : Ascends l) : Ascends (insert k v l) := by
  induction l with
  | nil => exact List.pairwise_singleton ..
  | cons a l ih =>
      obtain ⟨hall, htail⟩ := List.pairwise_cons.mp h
      rw [KeyOrder.insert]
      split
      · rename_i hlt
        refine List.pairwise_cons.mpr ⟨fun b hb => ?_, h⟩
        rcases List.mem_cons.mp hb with rfl | hb
        · exact hlt
        · exact String.lt_trans hlt (hall b hb)
      · rename_i hge
        split
        · rename_i heq
          exact List.pairwise_cons.mpr ⟨fun b hb => heq ▸ hall b hb, htail⟩
        · rename_i hne
          refine List.pairwise_cons.mpr ⟨fun b hb => ?_, ih htail⟩
          rcases mem_insert hb with rfl | hb
          · exact lt_of_not_lt hge hne
          · exact hall b hb

theorem Ascends.insertAll (h : Ascends l') : Ascends (insertAll l l') := by
  induction l generalizing l' with
  | nil => exact h
  | cons e l ih => exact ih h.insert

theorem ascends_ofList : Ascends (ofList l) := Ascends.insertAll List.Pairwise.nil

theorem lookup_insertAll :
    (insertAll l l').lookup k = (l.reverse.lookup k).or (l'.lookup k) := by
  induction l generalizing l' with
  | nil => rfl
  | cons e l ih =>
      obtain ⟨a, b⟩ := e
      rw [insertAll, List.foldl_cons, ← insertAll, ih, lookup_insert, List.reverse_cons,
        List.lookup_append, lookup_cons_key, Option.or_assoc]
      split <;> rfl

theorem lookup_ofList_last : (ofList l).lookup k = l.reverse.lookup k := by
  rw [ofList, lookup_insertAll]
  exact Option.or_none

theorem lookup_ofList (h : (l.map Prod.fst).Nodup) : (ofList l).lookup k = l.lookup k := by
  have hreverse : (l.reverse.map Prod.fst).Nodup :=
    ((List.reverse_perm l).map Prod.fst).nodup_iff.mpr h
  rw [lookup_ofList_last]
  refine Option.ext fun v => ?_
  rw [lookup_eq_some_iff_mem hreverse, lookup_eq_some_iff_mem h, List.mem_reverse]

theorem Ascends.nodup (h : Ascends l) : (l.map Prod.fst).Nodup := by
  refine (List.pairwise_map.mpr h).imp fun hlt heq => ?_
  exact String.lt_irrefl _ (heq ▸ hlt)

theorem Ascends.ext (h : Ascends l) (h' : Ascends l') (hk : ∀ k, l.lookup k = l'.lookup k) :
    l = l' := by
  have hasymm : ∀ a b : String × β, a.1 < b.1 → b.1 < a.1 → a = b :=
    fun a b hab hba => absurd (String.lt_trans hab hba) (String.lt_irrefl _)
  have hmem (e : String × β) : e ∈ l ↔ e ∈ l' := by
    rw [← lookup_eq_some_iff_mem h.nodup, ← lookup_eq_some_iff_mem h'.nodup, hk]
  refine List.Perm.eq_of_pairwise (fun a b _ _ => hasymm a b) h h' ?_
  have hnodup {l : List (String × β)} (h : Ascends l) : l.Nodup := by
    refine List.Pairwise.imp ?_ h
    rintro a b hlt rfl
    exact String.lt_irrefl _ hlt
  exact (List.perm_ext_iff_of_nodup (hnodup h) (hnodup h')).mpr hmem

theorem Ascends.beside (h : Ascends l) (hk : k ∉ l.map Prod.fst) {o : Option β} :
    (ofList ((o.map (k, ·)).toList ++ l)).lookup k = o ∧
      (ofList ((o.map (k, ·)).toList ++ l)).filter (·.1 ≠ k) = l := by
  have hnodup : (((o.map (k, ·)).toList ++ l).map Prod.fst).Nodup := by
    cases o with
    | none => exact h.nodup
    | some v => exact List.nodup_cons.mpr ⟨hk, h.nodup⟩
  have hlookup (q : String) :
      ((o.map (k, ·)).toList ++ l).lookup q = if q = k then o else l.lookup q := by
    cases o with
    | none =>
        refine (ite_eq_right_iff.mpr ?_).symm
        rintro rfl
        exact (lookup_eq_none_of_notMem hk).symm
    | some v => exact lookup_cons_key ..
  constructor
  · rw [lookup_ofList hnodup, hlookup, if_pos rfl]
  · refine Ascends.ext (ascends_ofList.filter _) h fun q => ?_
    rw [lookup_filter_key, lookup_ofList hnodup, hlookup]
    split
    · rename_i hq
      exact hq ▸ (lookup_eq_none_of_notMem hk).symm
    · rfl

theorem Ascends.ofList_eq (h : Ascends l) : ofList l = l :=
  ascends_ofList.ext h fun _ => lookup_ofList h.nodup

end KeyOrder

namespace Json

open KeyOrder (Ascends)

namespace Value

variable {fields : List (String × Option Value)} {key : String}

theorem lookup_present (h : (fields.map Prod.fst).Nodup) :
    (fields.filterMap fun (k, v) => v.map (k, ·)).lookup key = (fields.lookup key).join := by
  induction fields with
  | nil => rfl
  | cons e fields ih =>
      obtain ⟨a, o⟩ := e
      obtain ⟨hnot, hrest⟩ := List.nodup_cons.mp h
      rw [lookup_cons_key]
      cases o with
      | none =>
          refine (ih hrest).trans ?_
          split
          · rename_i hk
            subst hk
            rw [lookup_eq_none_of_notMem hnot]
            rfl
          · rfl
      | some v =>
          refine (lookup_cons_key ..).trans ?_
          split
          · rfl
          · exact ih hrest

theorem nodup_present (h : (fields.map Prod.fst).Nodup) :
    ((fields.filterMap fun (k, v) => v.map (k, ·)).map Prod.fst).Nodup := by
  refine h.sublist ?_
  rw [List.map_filterMap]
  induction fields with
  | nil => exact .slnil
  | cons e fields ih =>
      obtain ⟨a, o⟩ := e
      have ih := ih (List.nodup_cons.mp h).2
      cases o with
      | none => exact ih.cons a
      | some v => exact ih.cons_cons a

theorem lookup_ofPresent (h : (fields.map Prod.fst).Nodup) :
    (KeyOrder.ofList (fields.filterMap fun (k, v) => v.map (k, ·))).lookup key =
      (fields.lookup key).join := by
  rw [KeyOrder.lookup_ofList (nodup_present h), lookup_present h]

theorem get?_ofPresent (h : (fields.map Prod.fst).Nodup) :
    (ofPresent fields).get? key = (fields.lookup key).join := lookup_ofPresent h

inductive Ordered : Value → Prop
  | null : Ordered .null
  | bool (b : Bool) : Ordered (.bool b)
  | number (n : Number) : Ordered (.number n)
  | string (s : String) : Ordered (.string s)
  | array {items : List Value} : (∀ v ∈ items, Ordered v) → Ordered (.array items)
  | object {fields : List (String × Value)} : Ascends fields → (∀ e ∈ fields, Ordered e.2) →
      Ordered (.object fields)

theorem ordered_array {items : List Value} :
    (Value.array items).Ordered ↔ ∀ v ∈ items, v.Ordered :=
  ⟨fun | .array h => h, .array⟩

theorem ordered_object {fields : List (String × Value)} :
    (Value.object fields).Ordered ↔ Ascends fields ∧ ∀ e ∈ fields, e.2.Ordered :=
  ⟨fun | .object h h' => ⟨h, h'⟩, fun h => .object h.1 h.2⟩

end Value

def OrderedFields (fields : List (String × Value)) : Prop :=
  Ascends fields ∧ ∀ e ∈ fields, e.2.Ordered

theorem OrderedFields.insert {fields : List (String × Value)} {key : String} {v : Value}
    (h : OrderedFields fields) (hv : v.Ordered) : OrderedFields (KeyOrder.insert key v fields) := by
  refine ⟨h.1.insert, fun e he => ?_⟩
  rcases KeyOrder.mem_insert he with rfl | he
  · exact hv
  · exact h.2 e he

section Reading

variable {fuel depth : Nat} {shape : Shape} {cs rest : List Char}

structure ReadsOrdered (fuel : Nat) : Prop where
  value : ∀ {depth shape cs v rest}, readValue fuel depth shape cs = .ok (v, rest) → v.Ordered
  items : ∀ {depth shape cs vs rest}, readItems fuel depth shape cs = .ok (vs, rest) →
    ∀ v ∈ vs, v.Ordered
  fields : ∀ {depth shape found cs fields rest},
    readFields fuel depth shape found cs = .ok (fields, rest) → OrderedFields found →
      OrderedFields fields

theorem unexpected_ne_ok {α : Type} {a : α} : unexpected cs ≠ .ok a := by
  unfold unexpected
  split <;> exact fun h => by cases h

theorem ReadsOrdered.succ_value {v : Value} (ih : ReadsOrdered fuel)
    (h : readValue (fuel + 1) depth shape cs = .ok (v, rest)) : v.Ordered := by
  rw [readValue] at h
  split at h
  · obtain ⟨word, -, h⟩ := bind_eq_ok.mp h
    cases h
    exact .null
  · obtain ⟨word, -, h⟩ := bind_eq_ok.mp h
    cases h
    exact .bool true
  · obtain ⟨word, -, h⟩ := bind_eq_ok.mp h
    cases h
    exact .bool false
  · obtain ⟨⟨s, rest⟩, -, h⟩ := bind_eq_ok.mp h
    cases h
    exact .string s
  · split at h
    · cases h
    · split at h
      · cases h
        exact .array (by simp)
      · obtain ⟨⟨items, rest⟩, hitems, h⟩ := bind_eq_ok.mp h
        cases h
        exact .array (ih.items hitems)
  · split at h
    · cases h
    · split at h
      · cases h
        exact .object .nil (by simp)
      · obtain ⟨⟨fields, rest⟩, hfields, h⟩ := bind_eq_ok.mp h
        cases h
        obtain ⟨hascends, hordered⟩ := ih.fields hfields ⟨.nil, by simp⟩
        exact .object hascends hordered
  · split at h
    · obtain ⟨⟨n, rest⟩, -, h⟩ := bind_eq_ok.mp h
      cases h
      exact .number n
    · exact absurd h unexpected_ne_ok

theorem ReadsOrdered.succ_items {vs : List Value} (ih : ReadsOrdered fuel)
    (h : readItems (fuel + 1) depth shape cs = .ok (vs, rest)) : ∀ v ∈ vs, v.Ordered := by
  rw [readItems] at h
  obtain ⟨⟨v, rest'⟩, hv, h⟩ := bind_eq_ok.mp h
  have hv := ih.value hv
  dsimp only at h
  split at h
  · obtain ⟨⟨vs', rest⟩, hvs, h⟩ := bind_eq_ok.mp h
    cases h
    exact List.forall_mem_cons.mpr ⟨hv, ih.items hvs⟩
  · cases h
    exact List.forall_mem_singleton.mpr hv
  · exact absurd h unexpected_ne_ok

theorem ReadsOrdered.succ_fields {found fields : List (String × Value)} (ih : ReadsOrdered fuel)
    (h : readFields (fuel + 1) depth shape found cs = .ok (fields, rest))
    (hfound : OrderedFields found) : OrderedFields fields := by
  rw [readFields] at h
  obtain ⟨⟨key, rest₁⟩, -, h⟩ := bind_eq_ok.mp h
  dsimp only at h
  split at h
  · obtain ⟨rest₂, -, h⟩ := bind_eq_ok.mp h
    obtain ⟨x, hx, h⟩ := bind_eq_ok.mp h
    cases hx
    dsimp only at h
    split at h
    · exact ih.fields h hfound
    · cases h
      exact hfound
    · exact absurd h unexpected_ne_ok
  · split at h
    · cases h
    · obtain ⟨⟨v, rest₂⟩, hv, h⟩ := bind_eq_ok.mp h
      obtain ⟨x, hx, h⟩ := bind_eq_ok.mp h
      cases hx
      have hfound : OrderedFields (KeyOrder.insert key v found) := hfound.insert (ih.value hv)
      dsimp only at h
      split at h
      · exact ih.fields h hfound
      · cases h
        exact hfound
      · exact absurd h unexpected_ne_ok

theorem readsOrdered (fuel : Nat) : ReadsOrdered fuel := by
  induction fuel with
  | zero =>
      constructor
      case value | items =>
        intro _ _ _ _ _ h
        cases h
      case fields =>
        intro _ _ _ _ _ _ h
        cases h
  | succ fuel ih => exact ⟨ih.succ_value, ih.succ_items, ih.succ_fields⟩

theorem ordered_of_readText {text : String} {v : Value} (h : readText shape text = .ok v) :
    v.Ordered := by
  obtain ⟨⟨v', rest⟩, hv, h⟩ := bind_eq_ok.mp h
  dsimp only at h
  split at h <;> cases h
  exact (readsOrdered _).value hv

end Reading

end Json

end AgentGateway
