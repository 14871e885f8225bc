import AgentGateway.Proofs.Amounts
import AgentGateway.Proofs.Fields
import AgentGateway.Proofs.Literals

namespace AgentGateway.Json

open KeyOrder (Ascends)

variable {cs rest : List Char}

def isNumeralChar (c : Char) : Bool :=
  c.isDigit || c = '-' || c = '+' || c = '.' || c = 'e' || c = 'E'

def Stops (cs : List Char) : Prop := ∀ c ∈ cs.head?, isNumeralChar c = false

/-- That a reader reads the same with more behind, where no numeral goes on, and that it takes away
characters of numerals only. -/
structure ReadsNumeral {α : Type} (p : List Char → Option (α × List Char)) : Prop where
  extend : ∀ {cs a r rest}, p cs = some (a, r) → Stops rest → p (cs ++ rest) = some (a, r ++ rest)
  taken : ∀ {cs a r}, p cs = some (a, r) → ∃ pre, cs = pre ++ r ∧ ∀ c ∈ pre, isNumeralChar c = true

theorem isNumeralChar_of_isDigit {c : Char} (h : c.isDigit = true) : isNumeralChar c = true := by
  simp [isNumeralChar, h]

namespace ReadsNumeral

variable {α β : Type}

theorem bind {p : List Char → Option (α × List Char)}
    {q : α → List Char → Option (β × List Char)} (hp : ReadsNumeral p)
    (hq : ∀ a, ReadsNumeral (q a)) : ReadsNumeral fun cs => (p cs).bind fun x => q x.1 x.2 := by
  constructor
  · intro cs b r rest h hstop
    obtain ⟨⟨a, r'⟩, ha, hb⟩ := Option.bind_eq_some_iff.mp h
    exact Option.bind_eq_some_iff.mpr ⟨_, hp.extend ha hstop, (hq a).extend hb hstop⟩
  · intro cs b r h
    obtain ⟨⟨a, r'⟩, ha, hb⟩ := Option.bind_eq_some_iff.mp h
    obtain ⟨pre, rfl, hpre⟩ := hp.taken ha
    obtain ⟨pre', rfl, hpre'⟩ := (hq a).taken hb
    refine ⟨pre ++ pre', (List.append_assoc ..).symm, fun c hc => ?_⟩
    exact (List.mem_append.mp hc).elim (hpre c) (hpre' c)

theorem pure (a : α) : ReadsNumeral fun cs => some (a, cs) := by
  constructor
  · rintro cs _ r rest ⟨⟩ -
    rfl
  · rintro cs _ r ⟨⟩
    exact ⟨[], rfl, by simp⟩

theorem branch (test : Char → Bool) (p : Char → List Char → Option (α × List Char))
    (q : List Char → Option (α × List Char)) {r : List Char → Option (α × List Char)}
    (htest : ∀ d, test d = true → isNumeralChar d = true) (hp : ∀ d, ReadsNumeral (p d))
    (hq : ReadsNumeral q) (htaken : ∀ d cs, test d = true → r (d :: cs) = p d cs)
    (helse : ∀ cs, (∀ d ∈ cs.head?, test d = false) → r cs = q cs) : ReadsNumeral r := by
  have hstops {rest : List Char} (hstop : Stops rest) : ∀ d ∈ rest.head?, test d = false := by
    intro d hd
    by_contra h
    rw [Bool.not_eq_false] at h
    have hd := hstop d hd
    rw [htest d h] at hd
    cases hd
  constructor
  · intro cs a tail rest h hstop
    cases cs with
    | nil =>
        rw [helse [] (by simp)] at h
        rw [List.nil_append, helse rest (hstops hstop)]
        exact hq.extend h hstop
    | cons d cs =>
        rw [List.cons_append]
        cases hd : test d with
        | true =>
            rw [htaken d cs hd] at h
            rw [htaken d _ hd]
            exact (hp d).extend h hstop
        | false =>
            rw [helse _ (by simpa using hd)] at h
            rw [helse _ (by simpa using hd)]
            exact hq.extend h hstop
  · intro cs a tail h
    cases cs with
    | nil =>
        rw [helse [] (by simp)] at h
        exact hq.taken h
    | cons d cs =>
        cases hd : test d with
        | true =>
            rw [htaken d cs hd] at h
            obtain ⟨pre, rfl, hpre⟩ := (hp d).taken h
            exact ⟨d :: pre, rfl, List.forall_mem_cons.mpr ⟨htest d hd, hpre⟩⟩
        | false =>
            rw [helse _ (by simpa using hd)] at h
            exact hq.taken h

end ReadsNumeral

namespace Numeral

open ReadsNumeral (bind branch pure)

theorem readsNumeral_digits? : ReadsNumeral digits? := by
  have hread {cs r : List Char} {ds : List Nat} (h : digits? cs = some (ds, r)) :
      ds ≠ [] ∧ ds = (cs.takeWhile Char.isDigit).map digitValue ∧
        r = cs.dropWhile Char.isDigit := by
    unfold digits? at h
    split at h
    · cases h
    · rename_i hne
      cases h
      refine ⟨?_, rfl, rfl⟩
      intro hnil
      exact hne _ (Prod.ext hnil rfl)
  constructor
  · intro cs ds r rest h hstop
    obtain ⟨hne, rfl, rfl⟩ := hread h
    have hdigits : ∀ c ∈ cs.takeWhile Char.isDigit, c.isDigit = true :=
      fun c hc => List.mem_takeWhile_imp hc
    have htail : ∀ c ∈ (cs.dropWhile Char.isDigit ++ rest).head?, c.isDigit = false := by
      intro c hc
      cases hdrop : cs.dropWhile Char.isDigit with
      | nil =>
          rw [hdrop, List.nil_append] at hc
          by_contra hdigit
          have hc := hstop c hc
          rw [isNumeralChar_of_isDigit (by simpa using hdigit)] at hc
          cases hc
      | cons d tail =>
          rw [hdrop] at hc
          apply head?_dropWhile (l := cs)
          rw [hdrop]
          exact hc
    have hcut : cs ++ rest = cs.takeWhile Char.isDigit ++ (cs.dropWhile Char.isDigit ++ rest) := by
      rw [← List.append_assoc, List.takeWhile_append_dropWhile]
    have hspan : spanDigits (cs ++ rest) =
        ((cs.takeWhile Char.isDigit).map digitValue, cs.dropWhile Char.isDigit ++ rest) := by
      rw [spanDigits, hcut, takeWhile_append_stop hdigits htail,
        dropWhile_append_stop hdigits htail]
    rw [digits?, hspan]
    split
    · rename_i hnil
      exact absurd (congrArg Prod.fst hnil) hne
    · rfl
  · intro cs ds r h
    obtain ⟨-, -, rfl⟩ := hread h
    refine ⟨cs.takeWhile Char.isDigit, List.takeWhile_append_dropWhile.symm, fun c hc => ?_⟩
    exact isNumeralChar_of_isDigit (List.mem_takeWhile_imp hc)

theorem readsNumeral_whole? : ReadsNumeral whole? := by
  refine bind (p := digits?) (q := fun ds rest =>
    if ds.head? = some 0 ∧ ds.length ≠ 1 then none else some (ds, rest)) readsNumeral_digits? ?_
  intro ds
  split
  · constructor
    · rintro cs a r rest ⟨⟩
    · rintro cs a r ⟨⟩
  · exact pure ds

theorem readsNumeral_sign : ReadsNumeral fun cs => some (sign cs) := by
  refine branch (fun d => d = '-') (fun _ cs => some (true, cs)) (fun cs => some (false, cs)) ?_
    (fun _ => pure true) (pure false) ?_ ?_
  · intro d hd
    rw [of_decide_eq_true hd]
    rfl
  · intro d cs hd
    rw [of_decide_eq_true hd]
    rfl
  · intro cs hcs
    rw [sign]
    rintro cs rfl
    exact absurd (hcs '-' rfl) (by simp)

theorem readsNumeral_exponentSign : ReadsNumeral fun cs => some (exponentSign cs) := by
  refine branch (fun d => d = '-' || d = '+') (fun d cs => some (decide (d = '-'), cs))
    (fun cs => some (false, cs)) ?_ (fun d => pure _) (pure false) ?_ ?_
  · intro d hd
    rcases Bool.or_eq_true_iff.mp hd with hd | hd
    · rw [of_decide_eq_true hd]
      rfl
    · rw [of_decide_eq_true hd]
      rfl
  · intro d cs hd
    rcases Bool.or_eq_true_iff.mp hd with hd | hd
    · rw [of_decide_eq_true hd]
      rfl
    · rw [of_decide_eq_true hd]
      rfl
  · intro cs hcs
    rw [exponentSign]
    · rintro cs rfl
      exact absurd (hcs '-' rfl) (by simp)
    · rintro cs rfl
      exact absurd (hcs '+' rfl) (by simp)

theorem readsNumeral_fraction? : ReadsNumeral fraction? := by
  refine branch (fun d => d = '.') (fun _ cs => (digits? cs).bind fun x => some (some x.1, x.2))
    (fun cs => some (none, cs)) ?_
    (fun _ => bind readsNumeral_digits? fun ds => pure (some ds)) (pure none) ?_ ?_
  · intro d hd
    rw [of_decide_eq_true hd]
    rfl
  · intro d cs hd
    rw [of_decide_eq_true hd]
    rfl
  · intro cs hcs
    rw [fraction?]
    rintro cs rfl
    exact absurd (hcs '.' rfl) (by simp)

theorem readsNumeral_exponent? : ReadsNumeral exponent? := by
  refine branch (fun d => d = 'e' || d = 'E')
    (fun _ cs => (some (exponentSign cs)).bind fun x =>
      (digits? x.2).bind fun y => some (some (x.1, y.1), y.2))
    (fun cs => some (none, cs)) ?_ (fun _ => ?_) (pure none) ?_ ?_
  · intro d hd
    rcases Bool.or_eq_true_iff.mp hd with hd | hd
    · rw [of_decide_eq_true hd]
      rfl
    · rw [of_decide_eq_true hd]
      rfl
  · exact bind readsNumeral_exponentSign fun negative =>
      bind readsNumeral_digits? fun ds => pure (some (negative, ds))
  · intro d cs hd
    have hd : d = 'e' ∨ d = 'E' := by simpa using hd
    rw [exponent?, if_pos hd]
    rfl
  · intro cs hcs
    cases cs with
    | nil => rfl
    | cons d cs =>
        have hd : ¬ (d = 'e' ∨ d = 'E') := by simpa using hcs d rfl
        rw [exponent?, if_neg hd]

theorem readsNumeral_read? : ReadsNumeral read? :=
  bind readsNumeral_sign fun _ => bind readsNumeral_whole? fun _ =>
    bind readsNumeral_fraction? fun _ => bind readsNumeral_exponent? fun _ => pure _

theorem start_of_digits? {ds : List Nat} (h : digits? cs = some (ds, rest)) :
    ∃ c cs', cs = c :: cs' ∧ c.isDigit = true := by
  cases cs with
  | nil => cases h
  | cons c cs =>
      refine ⟨c, cs, rfl, ?_⟩
      by_contra hc
      rw [digits?, spanDigits, List.takeWhile_cons_of_neg hc] at h
      cases h

theorem start_of_read? {n : Numeral} (h : read? cs = some (n, rest)) :
    ∃ c cs', cs = c :: cs' ∧ isNumberStart c = true := by
  obtain ⟨⟨whole, r⟩, hwhole, -⟩ := Option.bind_eq_some_iff.mp h
  obtain ⟨⟨ds, r'⟩, hdigits, -⟩ := Option.bind_eq_some_iff.mp hwhole
  obtain ⟨c, cs', hcs, hc⟩ := start_of_digits? hdigits
  split at hcs
  · exact ⟨'-', _, rfl, rfl⟩
  · exact ⟨c, cs', hcs, by simp [isNumberStart, hc]⟩

theorem le_foldl_digits (s : Nat) (ds : List Nat) : s ≤ ds.foldl (fun n d => n * 10 + d) s := by
  induction ds generalizing s with
  | nil => exact Nat.le_refl s
  | cons d ds ih => exact Nat.le_trans (by omega) (ih (s * 10 + d))

theorem fill_eq {s : Nat} {ds : List Nat}
    (h : ds.foldl (fun n d => n * 10 + d) s ≤ maxSignificand) :
    fill s ds = (ds.foldl (fun n d => n * 10 + d) s, []) := by
  induction ds generalizing s with
  | nil => rfl
  | cons d ds ih =>
      have hle : s * 10 + d ≤ maxSignificand := Nat.le_trans (le_foldl_digits _ ds) h
      rw [fill, if_neg (Nat.not_lt.mpr hle), ih h, List.foldl_cons]

theorem fill_digits {n : Nat} (h : Text.Digits cs n) (hn : n ≤ maxSignificand) :
    fill 0 (cs.map digitValue) = (n, []) := by
  have hvalue : (cs.map digitValue).foldl (fun n d => n * 10 + d) 0 = n := by
    rw [← h.value, Nat.ofDigitChars_eq_foldl, List.foldl_map]
    simp only [digitValue, Nat.mul_comm _ 10]
  rw [fill_eq (hvalue.symm ▸ hn), hvalue]

theorem digitValue_head {n : Nat} (hn : 0 < n) :
    ∀ c ∈ (Nat.toDigits 10 n).head?, digitValue c ≠ 0 := by
  induction n using Nat.strongRecOn with
  | ind n ih =>
      rcases Nat.lt_or_ge n 10 with hlt | hge
      · have hall : ∀ k < 10, 0 < k → digitValue k.digitChar ≠ 0 := by decide
        rw [Nat.toDigits_of_lt_base hlt]
        rintro _ ⟨⟩
        exact hall n hlt hn
      · rw [Nat.toDigits_of_base_le (by decide) hge,
          List.head?_append_of_ne_nil _ Nat.toDigits_ne_nil]
        exact ih (n / 10) (by omega) (by omega)

theorem whole?_toDigits {n : Nat} :
    whole? (Nat.toDigits 10 n) = some ((Nat.toDigits 10 n).map digitValue, []) := by
  have hdigits : ∀ c ∈ Nat.toDigits 10 n, c.isDigit = true := Text.digits_toDigits.digits
  have hread : digits? (Nat.toDigits 10 n) = some ((Nat.toDigits 10 n).map digitValue, []) := by
    have hspan : spanDigits (Nat.toDigits 10 n) = ((Nat.toDigits 10 n).map digitValue, []) := by
      rw [spanDigits, List.takeWhile_eq_self_iff.mpr hdigits, List.dropWhile_eq_nil_iff.mpr hdigits]
    rw [digits?, hspan]
    split
    · rename_i hnil
      exact absurd (List.map_eq_nil_iff.mp (congrArg Prod.fst hnil)) Nat.toDigits_ne_nil
    · rfl
  refine Option.bind_eq_some_iff.mpr ⟨_, hread, if_neg ?_⟩
  rintro ⟨hzero, hlength⟩
  rw [List.head?_map, Option.map_eq_some_iff] at hzero
  obtain ⟨c, hc, hzero⟩ := hzero
  cases n with
  | zero => exact hlength rfl
  | succ n => exact digitValue_head (Nat.succ_pos n) c hc hzero

theorem read?_intChars {i : Int} : read? (Number.intChars i) =
    some (⟨decide (i < 0), (Nat.toDigits 10 i.natAbs).map digitValue, none, none⟩, []) := by
  have hsign : sign (Number.intChars i) = (decide (i < 0), Nat.toDigits 10 i.natAbs) := by
    unfold Number.intChars
    split
    · rename_i hi
      rw [decide_eq_true hi, sign]
    · rename_i hi
      rw [decide_eq_false hi, sign]
      rintro cs hcs
      have hminus := Text.digits_toDigits.digits '-' (hcs ▸ List.mem_cons_self)
      cases hminus
  rw [read?, hsign]
  dsimp only
  rw [whole?_toDigits]
  rfl

end Numeral

def Number.Exact (n : Number) : Prop := readNumber n.chars = .ok (n, [])

theorem Number.Exact.readNumber_append {n : Number} (h : n.Exact) (hstop : Stops rest) :
    readNumber (n.chars ++ rest) = .ok (n, rest) := by
  unfold Exact readNumber at h
  split at h
  · cases h
  · rename_i hread
    split at h <;> cases h
    rename_i hvalue
    rw [readNumber, Numeral.readsNumeral_read?.extend hread hstop]
    simp only [hvalue, List.nil_append]

theorem Number.Exact.isNumeralChar {n : Number} (h : n.Exact) :
    ∀ c ∈ n.chars, isNumeralChar c = true := by
  unfold Exact readNumber at h
  split at h
  · cases h
  · rename_i hread
    obtain ⟨pre, hpre, hall⟩ := Numeral.readsNumeral_read?.taken hread
    split at h <;> cases h
    rwa [hpre, List.append_nil]

theorem Number.Exact.start {n : Number} (h : n.Exact) :
    ∃ c cs, n.chars = c :: cs ∧ isNumberStart c = true := by
  unfold Exact readNumber at h
  split at h
  · cases h
  · rename_i hread
    exact Numeral.start_of_read? hread

theorem Number.exact_int {i : Int} (hlow : -Nat.pow 2 63 ≤ i) (hhigh : i ≤ Nat.pow 2 64 - 1) :
    (Number.int i).Exact := by
  have hfill : Numeral.fill 0 ((Nat.toDigits 10 i.natAbs).map Numeral.digitValue) =
      (i.natAbs, []) := by
    refine Numeral.fill_digits Text.digits_toDigits ?_
    unfold Numeral.maxSignificand
    have hpow : Nat.pow 2 63 ≤ Nat.pow 2 64 - 1 := by decide
    omega
  have hintegral : Numeral.integral (decide (i < 0)) i.natAbs = some (.int i) := by
    unfold Numeral.integral
    split
    · rename_i hi
      have hi : 0 ≤ i := by simpa using hi
      rw [Int.natAbs_of_nonneg hi]
    · rename_i hi
      have hi : i < 0 := by simpa using hi
      rw [if_neg (by omega), show -(i.natAbs : Int) = i by omega]
  rw [Exact, chars, readNumber, Numeral.read?_intChars]
  simp only [Numeral.value?, hfill, hintegral]

namespace Value

inductive Within : Nat → Value → Prop
  | null {depth : Nat} : Within depth .null
  | bool {depth : Nat} (b : Bool) : Within depth (.bool b)
  | number {depth : Nat} (n : Number) : Within depth (.number n)
  | string {depth : Nat} (s : String) : Within depth (.string s)
  | array {depth : Nat} {items : List Value} : (∀ v ∈ items, Within depth v) →
      Within (depth + 1) (.array items)
  | object {depth : Nat} {fields : List (String × Value)} : (∀ e ∈ fields, Within depth e.2) →
      Within (depth + 1) (.object fields)

inductive Exact : Value → Prop
  | null : Exact .null
  | bool (b : Bool) : Exact (.bool b)
  | number {n : Number} : n.Exact → Exact (.number n)
  | string (s : String) : Exact (.string s)
  | array {items : List Value} : (∀ v ∈ items, Exact v) → Exact (.array items)
  | object {fields : List (String × Value)} : (∀ e ∈ fields, Exact e.2) → Exact (.object fields)

theorem exact_array {items : List Value} :
    (Value.array items).Exact ↔ ∀ v ∈ items, v.Exact :=
  ⟨fun | .array h => h, .array⟩

theorem exact_object {fields : List (String × Value)} :
    (Value.object fields).Exact ↔ ∀ e ∈ fields, e.2.Exact :=
  ⟨fun | .object h => h, .object⟩

variable {v : Value} {vs items : List Value} {fs fields : List (String × Value)} {depth fuel : Nat}

def opens (c : Char) : Bool := isNumberStart c || c ∈ ['n', 't', 'f', '"', '[', '{']

theorem Exact.start (h : v.Exact) : ∃ c cs, v.chars = c :: cs ∧ opens c = true := by
  cases h with
  | null => exact ⟨_, _, rfl, rfl⟩
  | bool b => cases b <;> exact ⟨_, _, rfl, rfl⟩
  | number hn =>
      obtain ⟨c, cs, hcs, hc⟩ := hn.start
      exact ⟨c, cs, by rw [chars, hcs], by rw [opens, hc, Bool.true_or]⟩
  | string s => exact ⟨_, _, rfl, rfl⟩
  | @array items _ => cases items <;> exact ⟨_, _, rfl, rfl⟩
  | @object fields _ => cases fields <;> exact ⟨_, _, rfl, rfl⟩

theorem Exact.ne_nil (h : v.Exact) : v.chars ≠ [] := by
  obtain ⟨c, cs, hcs, -⟩ := h.start
  rw [hcs]
  exact List.cons_ne_nil c cs

theorem not_blank_of_numeralChar {c : Char} (h : isNumeralChar c = true) :
    Text.isBlank c = false := by
  simp only [isNumeralChar, Bool.or_eq_true, decide_eq_true_eq] at h
  rcases h with ((((hdigit | rfl) | rfl) | rfl) | rfl) | rfl
  · exact Text.isBlank_of_isDigit hdigit
  all_goals rfl

theorem not_blank_of_opens {c : Char} (h : opens c = true) : Text.isBlank c = false := by
  rcases Bool.or_eq_true_iff.mp h with hnumber | hletter
  · apply not_blank_of_numeralChar
    rcases Bool.or_eq_true_iff.mp hnumber with hminus | hdigit
    · rw [of_decide_eq_true hminus]
      rfl
    · exact isNumeralChar_of_isDigit hdigit
  · exact Text.not_blank_of_all (by decide) (of_decide_eq_true hletter)

theorem itemsChars_ends (vs : List Value) : ∃ cs, itemsChars vs = cs ++ [']'] := by
  induction vs with
  | nil => exact ⟨[], rfl⟩
  | cons v vs ih =>
      obtain ⟨cs, hcs⟩ := ih
      exact ⟨',' :: (v.chars ++ cs), by simp [itemsChars, hcs]⟩

theorem fieldsChars_ends (fs : List (String × Value)) : ∃ cs, fieldsChars fs = cs ++ ['}'] := by
  induction fs with
  | nil => exact ⟨[], rfl⟩
  | cons e fs ih =>
      obtain ⟨k, v⟩ := e
      obtain ⟨cs, hcs⟩ := ih
      exact ⟨',' :: (quoteChars k.toList ++ ':' :: (v.chars ++ cs)), by simp [fieldsChars, hcs]⟩

theorem array_ends (items : List Value) : ∃ cs, (Value.array items).chars = cs ++ [']'] := by
  cases items with
  | nil => exact ⟨['['], rfl⟩
  | cons v vs =>
      obtain ⟨cs, hcs⟩ := itemsChars_ends vs
      exact ⟨'[' :: (v.chars ++ cs), by simp [chars, hcs]⟩

theorem object_ends (fields : List (String × Value)) :
    ∃ cs, (Value.object fields).chars = cs ++ ['}'] := by
  cases fields with
  | nil => exact ⟨['{'], rfl⟩
  | cons e fs =>
      obtain ⟨k, v⟩ := e
      obtain ⟨cs, hcs⟩ := fieldsChars_ends fs
      exact ⟨'{' :: (quoteChars k.toList ++ ':' :: (v.chars ++ cs)), by simp [chars, hcs]⟩

theorem Exact.isTrimmed (h : v.Exact) : Text.IsTrimmed v.chars := by
  constructor
  · obtain ⟨c, cs, hcs, hc⟩ := h.start
    rw [hcs]
    rintro _ ⟨⟩
    exact not_blank_of_opens hc
  · have hends {cs : List Char} {d : Char} (hd : Text.isBlank d = false) :
        ∀ c ∈ (cs ++ [d]).getLast?, Text.isBlank c = false := by
      intro c hc
      rw [List.getLast?_concat] at hc
      cases hc
      exact hd
    cases h with
    | null =>
        rintro _ ⟨⟩
        rfl
    | bool b => cases b <;> rintro _ ⟨⟩ <;> rfl
    | number hn =>
        intro c hc
        exact not_blank_of_numeralChar (hn.isNumeralChar c (List.mem_of_getLast? hc))
    | string s => exact (literal_quoteChars s.toList).isTrimmed.last
    | @array items _ =>
        obtain ⟨cs, hcs⟩ := array_ends items
        rw [hcs]
        exact hends rfl
    | @object fields _ =>
        obtain ⟨cs, hcs⟩ := object_ends fields
        rw [hcs]
        exact hends rfl

theorem mem_itemsChars {c : Char} (h : c ∈ itemsChars vs) :
    c ∈ [',', ']'] ∨ ∃ w ∈ vs, c ∈ w.chars := by
  induction vs with
  | nil =>
      rw [List.mem_singleton.mp h]
      exact .inl (by simp)
  | cons v vs ih =>
      rcases List.mem_cons.mp h with rfl | h
      · exact .inl List.mem_cons_self
      · rcases List.mem_append.mp h with h | h
        · exact .inr ⟨v, List.mem_cons_self, h⟩
        · refine (ih h).imp_right ?_
          rintro ⟨w, hw, hc⟩
          exact ⟨w, List.mem_cons_of_mem v hw, hc⟩

theorem mem_fieldsChars {c : Char} (h : c ∈ fieldsChars fs) :
    c ∈ [',', ':', '}'] ∨ ∃ e ∈ fs, c ∈ quoteChars e.1.toList ∨ c ∈ e.2.chars := by
  induction fs with
  | nil =>
      rw [List.mem_singleton.mp h]
      exact .inl (by simp)
  | cons e fs ih =>
      obtain ⟨k, v⟩ := e
      rcases List.mem_cons.mp h with rfl | h
      · exact .inl List.mem_cons_self
      · rcases List.mem_append.mp h with h | h
        · exact .inr ⟨(k, v), List.mem_cons_self, .inl h⟩
        · rcases List.mem_cons.mp h with rfl | h
          · exact .inl (by simp)
          · rcases List.mem_append.mp h with h | h
            · exact .inr ⟨(k, v), List.mem_cons_self, .inr h⟩
            · refine (ih h).imp_right ?_
              rintro ⟨e, he, hc⟩
              exact ⟨e, List.mem_cons_of_mem _ he, hc⟩

theorem mem_array {c : Char} (h : c ∈ (Value.array items).chars) :
    c ∈ ['[', ',', ']'] ∨ ∃ w ∈ items, c ∈ w.chars := by
  cases items with
  | nil => rcases List.mem_pair.mp h with rfl | rfl <;> exact .inl (by simp)
  | cons v vs =>
      rcases List.mem_cons.mp h with rfl | h
      · exact .inl List.mem_cons_self
      · have hmem : c ∈ itemsChars (v :: vs) := List.mem_cons_of_mem _ h
        exact (mem_itemsChars hmem).imp_left (List.mem_cons_of_mem _)

theorem mem_object {c : Char} (h : c ∈ (Value.object fields).chars) :
    c ∈ ['{', ',', ':', '}'] ∨ ∃ e ∈ fields, c ∈ quoteChars e.1.toList ∨ c ∈ e.2.chars := by
  cases fields with
  | nil => rcases List.mem_pair.mp h with rfl | rfl <;> exact .inl (by simp)
  | cons e fs =>
      obtain ⟨k, v⟩ := e
      rcases List.mem_cons.mp h with rfl | h
      · exact .inl List.mem_cons_self
      · have hmem : c ∈ fieldsChars ((k, v) :: fs) := List.mem_cons_of_mem _ h
        exact (mem_fieldsChars hmem).imp_left (List.mem_cons_of_mem _)

theorem Exact.notMem_newline (h : v.Exact) : '\n' ∉ v.chars := by
  induction h with
  | null => decide
  | bool b => cases b <;> decide
  | number hn =>
      intro hmem
      have hnumeral := hn.isNumeralChar _ hmem
      cases hnumeral
  | string s => exact (literal_quoteChars s.toList).notMem_newline
  | array _ ih =>
      intro hmem
      rcases mem_array hmem with h | ⟨w, hw, h⟩
      · exact absurd h (by decide)
      · exact ih w hw h
  | object _ ih =>
      intro hmem
      rcases mem_object hmem with h | ⟨e, he, h | h⟩
      · exact absurd h (by decide)
      · exact (literal_quoteChars e.1.toList).notMem_newline h
      · exact ih e he h

theorem skipBlanks_cons {c : Char} (h : isBlank c = false) :
    skipBlanks (c :: cs) = c :: cs := List.dropWhile_cons_of_neg (by simp [h])

theorem isBlank_of_opens {c : Char} (h : opens c = true) : isBlank c = false := by
  by_contra hblank
  simp only [isBlank, Bool.not_eq_false, Bool.or_eq_true, decide_eq_true_eq] at hblank
  rcases hblank with ((rfl | rfl) | rfl) | rfl <;> cases h

theorem Exact.skipBlanks_append (h : v.Exact) :
    skipBlanks (v.chars ++ rest) = v.chars ++ rest := by
  obtain ⟨c, cs, hcs, hc⟩ := h.start
  rw [hcs, List.cons_append, skipBlanks_cons (isBlank_of_opens hc)]

theorem Exact.append_ne (h : v.Exact) {d : Char} (hd : opens d = false) :
    v.chars ++ cs ≠ d :: rest := by
  obtain ⟨c, cs', hcs, hc⟩ := h.start
  rw [hcs]
  rintro ⟨⟩
  rw [hc] at hd
  cases hd

theorem stops_itemsChars : Stops (itemsChars vs ++ rest) := by
  cases vs <;> rintro _ ⟨⟩ <;> rfl

theorem stops_fieldsChars : Stops (fieldsChars fs ++ rest) := by
  cases fs with
  | nil =>
      rintro _ ⟨⟩
      rfl
  | cons e fs =>
      rintro _ ⟨⟩
      rfl

def Reads (depth : Nat) (v : Value) : Prop := ∀ fuel rest, v.chars.length < fuel → Stops rest →
  readValue fuel depth .whole (v.chars ++ rest) = .ok (v, rest)

theorem readItems_chars (hexact : ∀ w ∈ v :: vs, w.Exact) (hreads : ∀ w ∈ v :: vs, Reads depth w)
    (hfuel : (v.chars ++ itemsChars vs).length < fuel) :
    readItems fuel depth .whole (v.chars ++ (itemsChars vs ++ rest)) = .ok (v :: vs, rest) := by
  induction vs generalizing v fuel with
  | nil =>
      obtain ⟨fuel, rfl⟩ := Nat.exists_eq_add_one_of_ne_zero (Nat.ne_zero_of_lt hfuel)
      have hv := hreads v List.mem_cons_self fuel (itemsChars [] ++ rest)
        (by simp [itemsChars] at hfuel; omega) stops_itemsChars
      rw [readItems]
      exact bind_eq_ok.mpr ⟨_, hv, rfl⟩
  | cons w vs ih =>
      obtain ⟨fuel, rfl⟩ := Nat.exists_eq_add_one_of_ne_zero (Nat.ne_zero_of_lt hfuel)
      have hlength : v.chars.length + ((w.chars ++ itemsChars vs).length + 1) < fuel + 1 := by
        simpa [itemsChars] using hfuel
      have hv := hreads v List.mem_cons_self fuel (itemsChars (w :: vs) ++ rest) (by omega)
        stops_itemsChars
      have hpos := List.length_pos_iff.mpr (hexact v List.mem_cons_self).ne_nil
      have hvs : readItems fuel depth .whole (w.chars ++ (itemsChars vs ++ rest)) =
          .ok (w :: vs, rest) :=
        ih (List.forall_mem_cons.mp hexact).2 (List.forall_mem_cons.mp hreads).2 (by omega)
      rw [readItems]
      refine bind_eq_ok.mpr ⟨_, hv, ?_⟩
      have htail : skipBlanks (itemsChars (w :: vs) ++ rest) =
          ',' :: (w.chars ++ (itemsChars vs ++ rest)) := by
        rw [itemsChars, List.cons_append, List.append_assoc, skipBlanks_cons rfl]
      dsimp only
      rw [htail]
      exact bind_eq_ok.mpr ⟨_, hvs, rfl⟩

theorem readString_spelled (s : String) :
    readString (s.toList.flatMap escapeChar ++ '"' :: cs) = .ok (s, cs) := by
  refine bind_eq_ok.mpr ⟨(s.toList, cs), ?_, ?_⟩
  · refine (spells_flatMap s.toList).readQuoted ?_
    rw [List.length_append]
    omega
  · dsimp only
    rw [String.ofList_toList]

theorem quoteChars_append (s : List Char) :
    quoteChars s ++ cs = '"' :: (s.flatMap escapeChar ++ '"' :: cs) := by
  simp [quoteChars]

theorem readKey_quoteChars (k : String) :
    readKey (quoteChars k.toList ++ ':' :: cs) = .ok (k, cs) := by
  rw [quoteChars_append, readKey]
  exact bind_eq_ok.mpr ⟨_, readString_spelled k, rfl⟩

theorem readFields_cons {found : List (String × Value)} {k : String}
    {r : List (String × Value) × List Char}
    (hv : readValue fuel depth .whole (v.chars ++ cs) = .ok (v, cs))
    (hr : (∃ tail, cs = ',' :: tail ∧
        readFields fuel depth .whole (KeyOrder.insert k v found) tail = .ok r) ∨
      ∃ tail, cs = '}' :: tail ∧ r = (KeyOrder.insert k v found, tail)) :
    readFields (fuel + 1) depth .whole found (quoteChars k.toList ++ ':' :: (v.chars ++ cs)) =
      .ok r := by
  have hblank : skipBlanks (quoteChars k.toList ++ ':' :: (v.chars ++ cs)) =
      quoteChars k.toList ++ ':' :: (v.chars ++ cs) := skipBlanks_cons rfl
  rw [readFields, hblank]
  refine bind_eq_ok.mpr ⟨_, readKey_quoteChars k, bind_eq_ok.mpr ⟨_, hv,
    bind_eq_ok.mpr ⟨(KeyOrder.insert k v found, cs), rfl, ?_⟩⟩⟩
  rcases hr with ⟨tail, rfl, hr⟩ | ⟨tail, rfl, rfl⟩
  · exact hr
  · rfl

theorem readFields_chars {found : List (String × Value)} {k : String}
    (hexact : ∀ e ∈ (k, v) :: fs, e.2.Exact) (hreads : ∀ e ∈ (k, v) :: fs, Reads depth e.2)
    (hfuel : (quoteChars k.toList ++ ':' :: (v.chars ++ fieldsChars fs)).length < fuel) :
    readFields fuel depth .whole found
        (quoteChars k.toList ++ ':' :: (v.chars ++ (fieldsChars fs ++ rest))) =
      .ok (KeyOrder.insertAll ((k, v) :: fs) found, rest) := by
  induction fs generalizing k v found fuel with
  | nil =>
      obtain ⟨fuel, rfl⟩ := Nat.exists_eq_add_one_of_ne_zero (Nat.ne_zero_of_lt hfuel)
      have hread : Reads depth v := hreads (k, v) List.mem_cons_self
      have hv := hread fuel (fieldsChars [] ++ rest)
        (by simp [fieldsChars] at hfuel; omega) stops_fieldsChars
      exact readFields_cons hv (.inr ⟨rest, rfl, rfl⟩)
  | cons e fs ih =>
      obtain ⟨k', w⟩ := e
      obtain ⟨fuel, rfl⟩ := Nat.exists_eq_add_one_of_ne_zero (Nat.ne_zero_of_lt hfuel)
      have hlength : v.chars.length +
          ((quoteChars k'.toList ++ ':' :: (w.chars ++ fieldsChars fs)).length + 1) < fuel := by
        simp [fieldsChars] at hfuel ⊢
        omega
      have hread : Reads depth v := hreads (k, v) List.mem_cons_self
      have hv := hread fuel (fieldsChars ((k', w) :: fs) ++ rest) (by omega) stops_fieldsChars
      have hfs : readFields fuel depth .whole (KeyOrder.insert k v found)
          (quoteChars k'.toList ++ ':' :: (w.chars ++ (fieldsChars fs ++ rest))) =
            .ok (KeyOrder.insertAll ((k', w) :: fs) (KeyOrder.insert k v found), rest) :=
        ih (List.forall_mem_cons.mp hexact).2 (List.forall_mem_cons.mp hreads).2 (by omega)
      refine readFields_cons hv (.inl ⟨_, ?_, hfs⟩)
      simp [fieldsChars]

theorem reads_of_succ (h : ∀ fuel rest, v.chars.length ≤ fuel → Stops rest →
    readValue (fuel + 1) depth .whole (v.chars ++ rest) = .ok (v, rest)) : Reads depth v := by
  intro fuel rest hfuel hstop
  obtain ⟨fuel, rfl⟩ := Nat.exists_eq_add_one_of_ne_zero (Nat.ne_zero_of_lt hfuel)
  exact h fuel rest (Nat.le_of_lt_succ hfuel) hstop

theorem reads_number {n : Number} (h : n.Exact) : Reads depth (.number n) := by
  apply reads_of_succ
  intro fuel rest hfuel hstop
  obtain ⟨c, cs, hcs, hc⟩ := h.start
  have hblank : skipBlanks (n.chars ++ rest) = n.chars ++ rest :=
    Exact.skipBlanks_append (.number h)
  have hne {d : Char} (hd : isNumberStart d = false) (tail : List Char) :
      n.chars ++ rest ≠ d :: tail := by
    rw [hcs]
    rintro ⟨⟩
    rw [hc] at hd
    cases hd
  have hstart : ((n.chars ++ rest).head?.map isNumberStart).getD false = true := by
    rw [hcs]
    exact hc
  rw [chars, readValue, hblank]
  split
  case h_7 =>
    rw [if_pos hstart]
    exact bind_eq_ok.mpr ⟨_, h.readNumber_append hstop, rfl⟩
  all_goals
    rename_i heq
    exact absurd heq (hne rfl _)

theorem reads_string (s : String) : Reads depth (.string s) := by
  apply reads_of_succ
  intro fuel rest hfuel hstop
  rw [chars, quoteChars_append, readValue, skipBlanks_cons rfl]
  exact bind_eq_ok.mpr ⟨_, readString_spelled s, rfl⟩

theorem readValue_bracket (h : readItems fuel depth .whole (skipBlanks cs) = .ok (items, rest))
    (hne : ∀ tail, skipBlanks cs ≠ ']' :: tail) :
    readValue (fuel + 1) (depth + 1) .whole ('[' :: cs) = .ok (.array items, rest) := by
  rw [readValue, skipBlanks_cons rfl]
  split
  case h_5 heq =>
    cases heq
    dsimp only
    split
    · rename_i hbracket
      exact absurd hbracket (hne _)
    · exact bind_eq_ok.mpr ⟨_, h, rfl⟩
  case h_7 hbracket _ => exact absurd rfl (hbracket _)
  all_goals
    rename_i heq
    cases heq

theorem readValue_brace (h : readFields fuel depth .whole [] (skipBlanks cs) = .ok (fields, rest))
    (hne : ∀ tail, skipBlanks cs ≠ '}' :: tail) :
    readValue (fuel + 1) (depth + 1) .whole ('{' :: cs) = .ok (.object fields, rest) := by
  rw [readValue, skipBlanks_cons rfl]
  split
  case h_6 heq =>
    cases heq
    dsimp only
    split
    · rename_i hbrace
      exact absurd hbrace (hne _)
    · exact bind_eq_ok.mpr ⟨_, h, rfl⟩
  case h_7 hbrace => exact absurd rfl (hbrace _)
  all_goals
    rename_i heq
    cases heq

theorem reads_array (hexact : ∀ w ∈ items, w.Exact) (hreads : ∀ w ∈ items, Reads depth w) :
    Reads (depth + 1) (.array items) := by
  apply reads_of_succ
  intro fuel rest hfuel hstop
  cases items with
  | nil => rfl
  | cons v vs =>
      have hitems : readItems fuel depth .whole (v.chars ++ (itemsChars vs ++ rest)) =
          .ok (v :: vs, rest) := by
        apply readItems_chars hexact hreads
        simp [chars] at hfuel ⊢
        omega
      have hv := hexact v List.mem_cons_self
      rw [chars, List.cons_append, List.append_assoc]
      apply readValue_bracket
      · rw [hv.skipBlanks_append]
        exact hitems
      · intro tail
        rw [hv.skipBlanks_append]
        exact hv.append_ne rfl

theorem reads_object (hascends : Ascends fields) (hexact : ∀ e ∈ fields, e.2.Exact)
    (hreads : ∀ e ∈ fields, Reads depth e.2) : Reads (depth + 1) (.object fields) := by
  apply reads_of_succ
  intro fuel rest hfuel hstop
  cases fields with
  | nil => rfl
  | cons e fs =>
      obtain ⟨k, v⟩ := e
      have hfields : readFields fuel depth .whole []
          (quoteChars k.toList ++ ':' :: (v.chars ++ (fieldsChars fs ++ rest))) =
            .ok ((k, v) :: fs, rest) := by
        rw [readFields_chars hexact hreads]
        · exact congrArg (fun l => Except.ok (l, rest)) hascends.ofList_eq
        · simp [chars] at hfuel ⊢
          omega
      have hcs : (Value.object ((k, v) :: fs)).chars ++ rest =
          '{' :: (quoteChars k.toList ++ ':' :: (v.chars ++ (fieldsChars fs ++ rest))) := by
        simp [chars]
      rw [hcs]
      apply readValue_brace
      · exact hfields
      · rintro tail ⟨⟩

theorem Within.reads (h : Within depth v) (hexact : v.Exact) (hordered : v.Ordered) :
    Reads depth v := by
  induction h with
  | null =>
      apply reads_of_succ
      intros
      rfl
  | bool b =>
      apply reads_of_succ
      intros
      cases b <;> rfl
  | number n =>
      cases hexact with
      | number hn => exact reads_number hn
  | string s => exact reads_string s
  | array _ ih =>
      have hexact := exact_array.mp hexact
      have hordered := ordered_array.mp hordered
      exact reads_array hexact fun w hw => ih w hw (hexact w hw) (hordered w hw)
  | object _ ih =>
      have hexact := exact_object.mp hexact
      obtain ⟨hascends, hordered⟩ := ordered_object.mp hordered
      exact reads_object hascends hexact fun e he => ih e he (hexact e he) (hordered e he)

theorem parse_compact (h : Within maxDepth v) (hexact : v.Exact) (hordered : v.Ordered) :
    parse v.compact = .ok v := by
  have hread : readValue (v.chars.length + 1) maxDepth .whole (v.chars ++ []) = .ok (v, []) :=
    h.reads hexact hordered _ _ (Nat.lt_succ_self _) (by rintro _ ⟨⟩)
  rw [List.append_nil] at hread
  rw [parse, readText, compact, String.toList_ofList]
  exact bind_eq_ok.mpr ⟨_, hread, rfl⟩

end Value

end AgentGateway.Json
