import AgentGateway.Proofs.Fields
/-!
Decoding what has been written for a decoded value. A layout reads its fields back from an object
that has, for each of them, what is written for the value of the field; of the layouts of single
fields those of whole records are put together.
-/

namespace AgentGateway

open Json (Value)

theorem map_eq_ok {ε α β : Type} {x : Except ε α} {f : α → β} {b : β} :
    x.map f = .ok b ↔ ∃ a, x = .ok a ∧ f a = b := by
  cases x <;> simp [Except.map]

theorem mapError_eq_ok {ε δ α : Type} {x : Except ε α} {f : ε → δ} {a : α} :
    x.mapError f = .ok a ↔ x = .ok a := by
  cases x with
  | error e => exact ⟨nofun, nofun⟩
  | ok b => exact ⟨fun h => congrArg _ (Except.ok.inj h), fun h => congrArg _ (Except.ok.inj h)⟩

/-- That what has been decoded is decoded again from what is written for it, and that null is
written only for what has been decoded from null. -/
structure Decode.Stable {α : Type} (decode : Value → Except DecodeError α) (encode : α → Value) :
    Prop where
  again : ∀ {v a}, v.Ordered → decode v = .ok a → decode (encode a) = .ok a
  solid : ∀ {v a}, v.Ordered → v ≠ .null → decode v = .ok a → encode a ≠ .null

namespace Decode

variable {α : Type} {decode : Value → Except DecodeError α} {encode : α → Value}

theorem stable_value : Stable value id where
  again _ _ := rfl
  solid _ hv h := by
    cases h
    exact hv

theorem stable_string : Stable string .string where
  again _ _ := rfl
  solid _ _ _ := by simp

theorem stable_bool : Stable bool .bool where
  again _ _ := rfl
  solid _ _ _ := by simp

theorem intBetween_eq_ok {low high n : Int} {expected : String} {v : Value} :
    intBetween low high expected v = .ok n ↔ v = .int n ∧ low ≤ n ∧ n ≤ high := by
  unfold intBetween
  split
  · split
    · rename_i m hm
      simp only [Except.ok.injEq, Value.int, Value.number.injEq, Json.Number.int.injEq]
      exact ⟨fun h => ⟨h, h ▸ hm⟩, And.left⟩
    · rename_i m hm
      constructor
      · rintro ⟨⟩
      · rintro ⟨heq, hn⟩
        cases heq
        exact absurd hn hm
  · rename_i hv
    constructor
    · rintro ⟨⟩
    · exact fun h => absurd h.1 (hv n)

theorem stable_intBetween {low high : Int} {expected : String} :
    Stable (intBetween low high expected) .int where
  again _ h := intBetween_eq_ok.mpr ⟨rfl, (intBetween_eq_ok.mp h).2⟩
  solid _ _ _ := by simp [Value.int]

theorem stable_natBits {bits : Nat} : Stable (natBits bits) .nat where
  again {v n} _ h := by
    obtain ⟨m, hm, rfl⟩ := map_eq_ok.mp h
    obtain ⟨-, hlow, hhigh⟩ := intBetween_eq_ok.mp hm
    refine map_eq_ok.mpr ⟨m, intBetween_eq_ok.mpr ⟨?_, hlow, hhigh⟩, rfl⟩
    rw [Value.nat, Value.int, Int.toNat_of_nonneg hlow]
  solid _ _ _ := by simp [Value.nat]

theorem again_mapM (h : Stable decode encode) {vs : List Value} {as : List α}
    (hvs : ∀ v ∈ vs, v.Ordered) (has : vs.mapM decode = .ok as) :
    (as.map encode).mapM decode = .ok as := by
  induction vs generalizing as with
  | nil =>
      cases has
      rfl
  | cons v vs ih =>
      rw [List.mapM_cons] at has
      obtain ⟨a, ha, has⟩ := bind_eq_ok.mp has
      obtain ⟨as', has', heq⟩ := bind_eq_ok.mp has
      cases heq
      obtain ⟨hv, hvs⟩ := List.forall_mem_cons.mp hvs
      rw [List.map_cons, List.mapM_cons]
      exact bind_eq_ok.mpr ⟨a, h.again hv ha, bind_eq_ok.mpr ⟨as', ih hvs has', rfl⟩⟩

theorem Stable.list (h : Stable decode encode) :
    Stable (Decode.list decode) fun as => .array (as.map encode) where
  again {v as} hv has := by
    cases hv with
    | array hvs => exact again_mapM h hvs has
    | null | bool | number | string | object => cases has
  solid _ _ _ := by simp

theorem again_option (h : Stable decode encode) {v : Value} {o : Option α} {a : α}
    (hv : v.Ordered) (ho : option decode v = .ok o) (ha : a ∈ o) :
    option decode (encode a) = .ok (some a) := by
  unfold option at ho
  split at ho
  · cases ho
    cases ha
  · rename_i hnull
    obtain ⟨b, hb, rfl⟩ := map_eq_ok.mp ho
    cases ha
    unfold option
    split
    · rename_i heq
      exact absurd heq (h.solid hv hnull hb)
    · rw [h.again hv hb]
      rfl

end Decode

namespace Layout

open Decode (Stable)

variable {α β : Type} {l : Layout α} {lf : Layout (α → β)} {name expected : String} {a : α}
  {decode : Value → Except DecodeError α} {encode : α → Value} {written : List (String × Value)}

theorem find?_eq : (find? written name).map Prod.snd = written.lookup name := by
  induction written with
  | nil => rfl
  | cons e written ih =>
      obtain ⟨k, v⟩ := e
      rw [find?, lookup_cons_key]
      by_cases hk : k = name
      · rw [if_pos hk, if_pos hk.symm]
        rfl
      · rw [if_neg hk, if_neg (Ne.symm hk), ← ih, Option.map_map]
        rfl

theorem gather_field {absent : Except Defect α} :
    (field name absent decode).gather written = .ok a ↔
      written.lookup name = none ∧ absent = .ok a ∨
        ∃ v, written.lookup name = some v ∧ decode v = .ok a := by
  rw [← find?_eq]
  simp only [field]
  cases find? written name with
  | none => simp
  | some e => simp [mapError_eq_ok]

theorem apply_eq_ok {x : Except Defect (α → β)} {y : Except Defect α} {b : β} :
    apply x y = .ok b ↔ ∃ f a, x = .ok f ∧ y = .ok a ∧ f a = b := by
  cases x <;> cases y <;> simp [apply]

theorem gather_of_decode {v : Value} {surplus : Bool} (hv : v.Ordered)
    (h : l.decode expected v surplus = .ok a) :
    ∃ written : List (String × Value),
      (∀ e ∈ written, e.2.Ordered) ∧ l.gather written = .ok a := by
  cases hv with
  | object hascends hfields => exact ⟨_, hfields, mapError_eq_ok.mp h⟩
  | array hitems =>
      obtain ⟨b, hb, h⟩ := bind_eq_ok.mp h
      have hba : b = a := by
        split at h <;> cases h
        rfl
      subst hba
      exact ⟨_, fun e he => hitems _ (List.of_mem_zip he).2, mapError_eq_ok.mp hb⟩
  | null | bool | number | string => cases h

/-- That the fields of a layout are read back, to the same value, from any object that has at each
of them what is written for it. What may be written for a value is left to a relation. -/
def Restores (l : Layout α) (R : α → List (String × Option Value) → Prop) : Prop :=
  ∀ ⦃written a⦄, (∀ e ∈ written, e.2.Ordered) → l.gather written = .ok a →
    ∃ out, R a out ∧ out.map Prod.fst = l.names ∧
      ∀ again : List (String × Value), (∀ e ∈ out, again.lookup e.1 = e.2) →
        l.gather again = .ok a

namespace Restores

variable {R : α → List (String × Option Value) → Prop}

theorem required (h : Stable decode encode) (hR : ∀ a, R a [(name, some (encode a))]) :
    (required name decode).Restores R := by
  intro written a hw hg
  obtain ⟨-, ⟨⟩⟩ | ⟨v, hv, ha⟩ := gather_field.mp hg
  have hv : v.Ordered := hw _ (mem_of_lookup hv)
  refine ⟨_, hR a, rfl, fun again hagain => gather_field.mpr (.inr ⟨encode a, ?_, h.again hv ha⟩)⟩
  exact hagain _ (List.mem_singleton_self _)

theorem withDefault {default : α} (h : Stable decode encode)
    (hdefault : decode (encode default) = .ok default)
    (hR : ∀ a, R a [(name, some (encode a))]) : (withDefault name default decode).Restores R := by
  intro written a hw hg
  have ha : decode (encode a) = .ok a := by
    obtain ⟨-, ⟨⟩⟩ | ⟨v, hv, ha⟩ := gather_field.mp hg
    · exact hdefault
    · exact h.again (hw _ (mem_of_lookup hv)) ha
  refine ⟨_, hR a, rfl, fun again hagain => gather_field.mpr (.inr ⟨encode a, ?_, ha⟩)⟩
  exact hagain _ (List.mem_singleton_self _)

theorem optional (h : Stable decode encode) {R : Option α → List (String × Option Value) → Prop}
    (hR : ∀ a, R a [(name, a.map encode)]) : (optional name decode).Restores R := by
  intro written a hw hg
  refine ⟨_, hR a, rfl, fun again hagain => ?_⟩
  have hlookup : again.lookup name = a.map encode := hagain _ (List.mem_singleton_self _)
  cases a with
  | none => exact gather_field.mpr (.inl ⟨hlookup, rfl⟩)
  | some a =>
      obtain ⟨-, ⟨⟩⟩ | ⟨v, hv, ha⟩ := gather_field.mp hg
      have ha := Decode.again_option h (hw _ (mem_of_lookup hv)) ha rfl
      exact gather_field.mpr (.inr ⟨encode a, hlookup, ha⟩)

theorem optionalValue {R : Option Value → List (String × Option Value) → Prop}
    (hR : ∀ a, R a [(name, a)]) : (Layout.optional name Decode.value).Restores R :=
  optional Decode.stable_value fun a => by simpa only [Option.map_id, id] using hR a

theorem map {f : α → β} {S : β → List (String × Option Value) → Prop}
    (h : l.Restores fun a out => S (f a) out) : (f <$> l).Restores S := by
  intro written b hw hg
  obtain ⟨a, ha, rfl⟩ := map_eq_ok.mp hg
  obtain ⟨out, hout, hnames, hagain⟩ := h hw ha
  exact ⟨out, hout, hnames, fun again hl => map_eq_ok.mpr ⟨a, hagain again hl, rfl⟩⟩

theorem seq {col : α → List (String × Option Value)} {S : β → List (String × Option Value) → Prop}
    (h : l.Restores fun a out => out = col a)
    (hf : lf.Restores fun f out => ∀ a, S (f a) (out ++ col a)) : (lf <*> l).Restores S := by
  intro written b hw hg
  obtain ⟨f, a, hgf, hga, rfl⟩ := apply_eq_ok.mp hg
  obtain ⟨outf, houtf, hnamesf, hagainf⟩ := hf hw hgf
  obtain ⟨out, rfl, hnames, hagain⟩ := h hw hga
  refine ⟨outf ++ col a, houtf a, ?_, fun again hl => ?_⟩
  · rw [List.map_append, hnamesf, hnames]
    rfl
  · have hl := List.forall_mem_append.mp hl
    exact apply_eq_ok.mpr ⟨f, a, hagainf again hl.1, hagain again hl.2, rfl⟩

theorem stable (h : l.Restores fun a out => encode a = .ofPresent out) (hnames : l.names.Nodup) :
    Stable (fun v => l.decode expected v) encode := by
  constructor
  · intro v a hv ha
    obtain ⟨written, hw, hg⟩ := gather_of_decode hv ha
    obtain ⟨out, hout, hkeys, hagain⟩ := h hw hg
    have hout_nodup : (out.map Prod.fst).Nodup := hkeys ▸ hnames
    rw [hout]
    refine mapError_eq_ok.mpr (hagain _ fun e he => ?_)
    rw [Value.lookup_ofPresent hout_nodup, lookup_of_mem hout_nodup he]
    rfl
  · intro v a hv _ ha
    obtain ⟨written, hw, hg⟩ := gather_of_decode hv ha
    obtain ⟨out, hout, -, -⟩ := h hw hg
    rw [hout]
    exact Value.noConfusion

end Restores

end Layout

end AgentGateway
