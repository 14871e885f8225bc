import AgentGateway.Command.Grammar
import AgentGateway.Proofs.Blanks

namespace AgentGateway

namespace Text

variable {cs : List Char} {n m max : Nat} {i j low high : Int}

structure Digits (cs : List Char) (n : Nat) : Prop where
  ne_nil : cs ≠ []
  digits : ∀ c ∈ cs, c.isDigit = true
  value : Nat.ofDigitChars 10 cs 0 = n

inductive Signed : List Char → Int → Prop
  | bare {cs : List Char} {n : Nat} : Digits cs n → Signed cs n
  | plus {cs : List Char} {n : Nat} : Digits cs n → Signed ('+' :: cs) n
  | minus {cs : List Char} {n : Nat} : Digits cs n → Signed ('-' :: cs) (-n)

theorem natOf?_eq_some_iff : natOf? cs = some n ↔ Digits cs n := by
  have hvalue : cs.foldl (fun n c => n * 10 + (c.toNat - '0'.toNat)) 0 =
      Nat.ofDigitChars 10 cs 0 := by
    rw [Nat.ofDigitChars_eq_foldl]
    simp only [Nat.mul_comm _ 10]
  unfold natOf?
  rw [hvalue]
  constructor
  · intro h
    split at h
    · cases h
    · rename_i hcs
      simp only [Bool.or_eq_true, Bool.not_eq_true', not_or, Bool.not_eq_false] at hcs
      exact ⟨by simpa using hcs.1, List.all_eq_true.mp hcs.2, Option.some.inj h⟩
  · rintro ⟨hne, hdigits, rfl⟩
    have hempty : cs.isEmpty = false := List.isEmpty_eq_false_iff.mpr hne
    simp [hempty, List.all_eq_true.mpr hdigits]

theorem digits_toDigits : Digits (Nat.toDigits 10 n) n where
  ne_nil := Nat.toDigits_ne_nil
  digits _ hc := Nat.isDigit_of_mem_toDigits (by decide) (by decide) hc
  value := Nat.ofDigitChars_ten_toDigits

theorem Digits.unique (h : Digits cs n) (h' : Digits cs m) : n = m :=
  h.value.symm.trans h'.value

theorem Digits.cons (h : Digits cs n) : ∃ c rest, cs = c :: rest ∧ c.isDigit = true := by
  obtain ⟨c, rest, rfl⟩ := List.exists_cons_of_ne_nil h.ne_nil
  exact ⟨c, rest, rfl, h.digits c List.mem_cons_self⟩

theorem Digits.not_sign {c : Char} (hc : c.isDigit = false) : ¬ Digits (c :: cs) n := by
  intro h
  rw [h.digits c List.mem_cons_self] at hc
  cases hc

theorem after?_sign {c : Char} (hc : c.isDigit = false) (h : Digits cs n) :
    after? [c] cs = none := by
  cases hr : after? [c] cs with
  | none => rfl
  | some rest =>
      rw [after?_eq_some_iff.mp hr] at h
      exact absurd h (Digits.not_sign hc)

theorem signed_of_after?_plus (h : Digits ((after? ['+'] cs).getD cs) n) : Signed cs n := by
  cases hplus : after? ['+'] cs with
  | none =>
      rw [hplus] at h
      exact .bare h
  | some digits =>
      rw [hplus] at h
      rw [after?_eq_some_iff.mp hplus]
      exact .plus h

theorem signed?_eq_some_iff (hlow : low ≤ 0) (hhigh : 0 ≤ high) :
    signed? low high cs = some i ↔ Signed cs i ∧ low ≤ i ∧ i ≤ high := by
  have hread {cs : List Char} {i : Int} : (do let n ← natOf? cs; pure (n : Int)) = some i ↔
      ∃ n, Digits cs n ∧ (n : Int) = i := by
    simp [Option.bind_eq_some_iff, natOf?_eq_some_iff]
  unfold signed?
  cases hminus : after? ['-'] cs with
  | some digits =>
      obtain rfl := after?_eq_some_iff.mp hminus
      simp only [Option.filter_eq_some_iff, Option.map_eq_some_iff, hread, decide_eq_true_eq]
      constructor
      · rintro ⟨⟨_, ⟨n, hn, rfl⟩, rfl⟩, hle⟩
        exact ⟨.minus hn, hle, by omega⟩
      · rintro ⟨h, hle, -⟩
        cases h with
        | bare hn => exact absurd hn (Digits.not_sign rfl)
        | minus hn => exact ⟨⟨_, ⟨_, hn, rfl⟩, rfl⟩, hle⟩
  | none =>
      simp only [Option.filter_eq_some_iff, Option.map_eq_some_iff, natOf?_eq_some_iff,
        decide_eq_true_eq]
      constructor
      · rintro ⟨⟨n, hn, rfl⟩, hle⟩
        exact ⟨signed_of_after?_plus hn, Int.le_trans hlow (Int.natCast_nonneg n), hle⟩
      · rintro ⟨h, -, hle⟩
        cases h with
        | bare hn =>
            rw [after?_sign rfl hn, Option.getD_none]
            exact ⟨⟨_, hn, rfl⟩, hle⟩
        | plus hn => exact ⟨⟨_, hn, rfl⟩, hle⟩
        | minus hn => cases hminus

theorem Signed.unique (h : Signed cs i) (h' : Signed cs j) : i = j := by
  have hread (k : Int) (hk : Signed cs k) (hlow : -(i.natAbs + j.natAbs : Int) ≤ k)
      (hhigh : k ≤ i.natAbs + j.natAbs) :=
    (signed?_eq_some_iff (by omega) (by omega)).mpr ⟨hk, hlow, hhigh⟩
  have hi := hread i h (by omega) (by omega)
  rw [hread j h' (by omega) (by omega)] at hi
  exact (Option.some.inj hi).symm

theorem unsigned?_eq_some_iff (hn : 0 < n) :
    unsigned? max cs = some n ↔ Signed cs n ∧ n ≤ max := by
  unfold unsigned?
  simp only [Option.filter_eq_some_iff, natOf?_eq_some_iff, decide_eq_true_eq]
  refine and_congr_left fun _ => ?_
  constructor
  · exact signed_of_after?_plus
  · generalize hi : (n : Int) = i
    intro h
    cases h with
    | bare hm =>
        obtain rfl := Int.ofNat.inj hi
        rwa [after?_sign rfl hm, Option.getD_none]
    | plus hm =>
        obtain rfl := Int.ofNat.inj hi
        exact hm
    | minus => omega

theorem signed_intChars : Signed (Json.Number.intChars i) i := by
  unfold Json.Number.intChars
  split
  · have h := Signed.minus (digits_toDigits (n := i.natAbs))
    rwa [show -(i.natAbs : Int) = i by omega] at h
  · have h := Signed.bare (digits_toDigits (n := i.natAbs))
    rwa [show (i.natAbs : Int) = i by omega] at h

theorem Signed.cons (h : Signed cs i) : ∃ c rest, cs = c :: rest ∧
    (c.isDigit = true ∨ c ∈ ['+', '-']) ∧ ∀ d ∈ rest, d.isDigit = true := by
  cases h with
  | bare hn =>
      obtain ⟨c, rest, rfl, hc⟩ := hn.cons
      exact ⟨c, rest, rfl, .inl hc, fun d hd => hn.digits d (List.mem_cons_of_mem c hd)⟩
  | plus hn => exact ⟨_, _, rfl, .inr (by simp), hn.digits⟩
  | minus hn => exact ⟨_, _, rfl, .inr (by simp), hn.digits⟩

theorem isBlank_of_isDigit {c : Char} (h : c.isDigit = true) : isBlank c = false := by
  have hbounds : 48 ≤ c.toNat ∧ c.toNat ≤ 57 := Char.isDigit_iff_toNat.mp h
  unfold isBlank
  simp only [Bool.or_eq_false_iff, Bool.and_eq_false_iff, decide_eq_false_iff_not]
  omega

end Text

namespace Command

open Text (Digits IsSpace)

variable {cs digits gap : List Char} {n m unit unit' ms : Nat}

inductive Timed : List Char → Nat → Nat → Prop
  | millis {digits gap : List Char} {n : Nat} : Digits digits n → IsSpace gap →
      Timed (digits ++ gap ++ ['m', 's']) n 1
  | seconds {digits gap : List Char} {n : Nat} : Digits digits n → IsSpace gap →
      Timed (digits ++ gap ++ ['s']) n 1000

theorem not_digit_of_space {c d : Char} {rest : List Char} (hgap : IsSpace gap)
    (hc : c.isDigit = false) (hd : d ∈ (gap ++ c :: rest).head?) : d.isDigit = false := by
  cases gap with
  | nil =>
      cases hd
      exact hc
  | cons e gap =>
      cases hd
      by_contra hdigit
      have hblank := hgap d List.mem_cons_self
      rw [Text.isBlank_of_isDigit (by simpa using hdigit)] at hblank
      cases hblank

theorem trimLeft_eq_cons {c : Char} {rest : List Char} (h : Text.trimLeft cs = c :: rest) :
    ∃ gap, IsSpace gap ∧ cs = gap ++ c :: rest := by
  refine ⟨cs.takeWhile Text.isBlank, fun c hc => List.mem_takeWhile_imp hc, ?_⟩
  rw [← h, Text.trimLeft, List.takeWhile_append_dropWhile]

theorem amount_cut (c : Char) (unit : List Char) (hdigits : Digits digits n)
    (hgap : IsSpace gap) (hc : c.isDigit = false) (hblank : Text.isBlank c = false) :
    (digits ++ gap ++ c :: unit).takeWhile Char.isDigit = digits ∧
      Text.trimLeft ((digits ++ gap ++ c :: unit).dropWhile Char.isDigit) = c :: unit := by
  have hstop : ∀ d ∈ (gap ++ c :: unit).head?, d.isDigit = false :=
    fun d hd => not_digit_of_space hgap hc hd
  rw [List.append_assoc, takeWhile_append_stop hdigits.digits hstop,
    dropWhile_append_stop hdigits.digits hstop, Text.trimLeft_append_cons hgap hblank]
  exact ⟨rfl, rfl⟩

theorem Timed.cut (h : Timed cs n unit) : Digits (cs.takeWhile Char.isDigit) n ∧
    (Text.trimLeft (cs.dropWhile Char.isDigit) = ['m', 's'] ∧ unit = 1 ∨
      Text.trimLeft (cs.dropWhile Char.isDigit) = ['s'] ∧ unit = 1000) := by
  cases h with
  | millis hdigits hgap =>
      obtain ⟨hamount, hunit⟩ := amount_cut 'm' ['s'] hdigits hgap rfl rfl
      exact ⟨hamount.symm ▸ hdigits, .inl ⟨hunit, rfl⟩⟩
  | seconds hdigits hgap =>
      obtain ⟨hamount, hunit⟩ := amount_cut 's' [] hdigits hgap rfl rfl
      exact ⟨hamount.symm ▸ hdigits, .inr ⟨hunit, rfl⟩⟩

theorem Timed.unique (h : Timed cs n unit) (h' : Timed cs m unit') : n = m ∧ unit = unit' := by
  obtain ⟨hn, hunit⟩ := h.cut
  obtain ⟨hm, hunit'⟩ := h'.cut
  refine ⟨hn.unique hm, ?_⟩
  rcases hunit with ⟨htail, rfl⟩ | ⟨htail, rfl⟩
  · rcases hunit' with ⟨-, rfl⟩ | ⟨htail', -⟩
    · rfl
    · rw [htail] at htail'
      cases htail'
  · rcases hunit' with ⟨htail', -⟩ | ⟨-, rfl⟩
    · rw [htail] at htail'
      cases htail'
    · rfl

theorem duration?_eq_some_iff :
    duration? cs = some ms ↔ ∃ n unit, Timed cs n unit ∧ n ≤ maxAmount ∧ ms = n * unit := by
  constructor
  · intro h
    obtain ⟨n, hn, h⟩ := Option.bind_eq_some_iff.mp h
    obtain ⟨hdigits, hle⟩ := Option.filter_eq_some_iff.mp hn
    have hdigits := Text.natOf?_eq_some_iff.mp hdigits
    have hle : n ≤ maxAmount := by simpa using hle
    have hcut {unit : List Char} {c : Char} (h : Text.trimLeft (cs.dropWhile Char.isDigit) =
        c :: unit) : ∃ gap, IsSpace gap ∧
          cs.takeWhile Char.isDigit ++ gap ++ c :: unit = cs := by
      obtain ⟨gap, hgap, hrest⟩ := trimLeft_eq_cons h
      refine ⟨gap, hgap, ?_⟩
      rw [List.append_assoc, ← hrest, List.takeWhile_append_dropWhile]
    split at h
    · rename_i hunit
      obtain ⟨gap, hgap, hcs⟩ := hcut hunit
      cases h
      exact ⟨_, 1, hcs ▸ .millis hdigits hgap, hle, (Nat.mul_one _).symm⟩
    · rename_i hunit
      obtain ⟨gap, hgap, hcs⟩ := hcut hunit
      cases h
      exact ⟨_, 1000, hcs ▸ .seconds hdigits hgap, hle, rfl⟩
    · cases h
  · rintro ⟨n, unit, h, hn, rfl⟩
    obtain ⟨hdigits, hunit⟩ := h.cut
    have hread : (Text.natOf? (cs.takeWhile Char.isDigit)).filter (· ≤ maxAmount) = some n := by
      rw [Text.natOf?_eq_some_iff.mpr hdigits, Option.filter_some, if_pos (by simpa using hn)]
    rcases hunit with ⟨htail, rfl⟩ | ⟨htail, rfl⟩
    · rw [duration?, hread, htail, Nat.mul_one]
      rfl
    · rw [duration?, hread, htail]
      rfl

end Command

end AgentGateway
