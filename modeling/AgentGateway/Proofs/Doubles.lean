import AgentGateway.Number.Binary64
import Mathlib.Algebra.Order.Field.Rat
import Mathlib.Algebra.Order.Field.Power
import Mathlib.Data.Nat.Cast.Field
import Mathlib.Data.Nat.Prime.Basic
import Mathlib.Data.Rat.Lemmas
import Mathlib.Tactic.FieldSimp
import Mathlib.Tactic.Linarith
import Mathlib.Tactic.Positivity
import Mathlib.Tactic.Ring

namespace AgentGateway

theorem roundHalfEven_le {n d : Nat} : roundHalfEven n d ≤ n / d + 1 := by
  simp only [roundHalfEven]
  split
  · exact Nat.le_succ _
  · split
    · exact Nat.le_refl _
    · omega

theorem roundHalfEven_of_dvd {n d : Nat} (hd : 0 < d) (h : d ∣ n) : roundHalfEven n d = n / d := by
  have hrest : n % d = 0 := Nat.mod_eq_zero_of_dvd h
  simp only [roundHalfEven, hrest]
  exact if_pos hd

namespace Binary64

def Holds (x : Rat) : Prop := ∃ m k : Nat, m < 2 ^ 53 ∧ k ≤ 1074 ∧ x = m / 2 ^ k

variable {num den : Nat} {x : Rat} {e : Int}

theorem toRat_eq (x : Binary64) :
    x.toRat = (if x.negative then -1 else 1) * (x.mantissa * (2 : Rat) ^ x.exponent) := by
  have hmagnitude : mkRat x.ratio.1 x.ratio.2 = x.mantissa * (2 : Rat) ^ x.exponent := by
    rw [Rat.mkRat_eq_div]
    unfold ratio
    split
    · rename_i hsign
      obtain ⟨k, hk⟩ := Int.eq_ofNat_of_zero_le hsign
      rw [hk]
      simp
    · rename_i hsign
      obtain ⟨k, hk⟩ := Int.eq_ofNat_of_zero_le (a := -x.exponent) (by omega)
      have hexponent : x.exponent = -(k : Int) := by omega
      rw [hexponent, neg_neg, zpow_neg, zpow_natCast]
      simp [div_eq_mul_inv]
  unfold toRat
  simp only [hmagnitude]
  split <;> ring

theorem rescale_pos (hd : 0 < den) : 0 < (rescale num den e).2 := by
  unfold rescale
  split
  · exact Nat.mul_pos hd (Nat.pow_pos (by decide))
  · exact hd

theorem rescale_quotient :
    ((rescale num den e).1 : Rat) / (rescale num den e).2 = num / den * (2 : Rat) ^ (-e) := by
  unfold rescale
  split
  · rename_i hsign
    obtain ⟨k, rfl⟩ := Int.eq_ofNat_of_zero_le hsign
    simp only [Int.toNat_natCast, zpow_neg, zpow_natCast, Nat.pow_eq]
    push_cast
    field_simp
  · rename_i hsign
    obtain ⟨k, hk⟩ := Int.eq_ofNat_of_zero_le (a := -e) (by omega)
    rw [hk]
    simp only [Int.toNat_natCast, zpow_natCast, Nat.pow_eq]
    push_cast
    ring

theorem rescale_lt_iff (hd : 0 < den) {bound : Nat} :
    (rescale num den e).1 < bound * (rescale num den e).2 ↔
      (num : Rat) / den * 2 ^ (-e) < bound := by
  have hpos : (0 : Rat) < (rescale num den e).2 := Nat.cast_pos.mpr (rescale_pos hd)
  rw [← rescale_quotient, div_lt_iff₀ hpos]
  exact_mod_cast Iff.rfl

theorem quotient_lt (hd : den ≠ 0) :
    (num : Rat) / den < 2 ^ ((num.log2 : Int) - den.log2 + 1) := by
  have hnum : (num : Rat) < 2 ^ (num.log2 + 1) := by exact_mod_cast Nat.lt_log2_self
  have hden : (2 : Rat) ^ den.log2 ≤ den := by exact_mod_cast Nat.log2_self_le hd
  have hpos : (0 : Rat) < 2 ^ den.log2 := by positivity
  have hexponent : (num.log2 : Int) - den.log2 + 1 = ((num.log2 + 1 : Nat) : Int) - den.log2 := by
    push_cast
    ring
  calc (num : Rat) / den ≤ num / 2 ^ den.log2 := div_le_div_of_nonneg_left (by positivity) hpos hden
    _ < 2 ^ (num.log2 + 1) / 2 ^ den.log2 := div_lt_div_of_pos_right hnum hpos
    _ = 2 ^ ((num.log2 : Int) - den.log2 + 1) := by
        rw [hexponent, zpow_sub₀ two_ne_zero, zpow_natCast, zpow_natCast]

theorem le_quotient (hn : num ≠ 0) (hd : 0 < den) :
    2 ^ ((num.log2 : Int) - den.log2 - 1) ≤ (num : Rat) / den := by
  have hnum : (2 : Rat) ^ num.log2 ≤ num := by exact_mod_cast Nat.log2_self_le hn
  have hden : (den : Rat) ≤ 2 ^ (den.log2 + 1) := by exact_mod_cast Nat.lt_log2_self.le
  have hpos : (0 : Rat) < den := Nat.cast_pos.mpr hd
  have hexponent : (num.log2 : Int) - den.log2 - 1 = num.log2 - ((den.log2 + 1 : Nat) : Int) := by
    push_cast
    ring
  calc (2 : Rat) ^ ((num.log2 : Int) - den.log2 - 1) = 2 ^ num.log2 / 2 ^ (den.log2 + 1) := by
        rw [hexponent, zpow_sub₀ two_ne_zero, zpow_natCast, zpow_natCast]
    _ ≤ 2 ^ num.log2 / den := div_le_div_of_nonneg_left (by positivity) hpos hden
    _ ≤ num / den := div_le_div_of_nonneg_right hnum hpos.le

theorem rescale_lt (hd : 0 < den) : (rescale num den (exponentFor num den)).1 <
    2 ^ 53 * (rescale num den (exponentFor num den)).2 := by
  obtain ⟨e, he⟩ : ∃ e : Int, e = (num.log2 : Int) - den.log2 - 52 := ⟨_, rfl⟩
  have hfirst : (num : Rat) / den * 2 ^ (-e) < 2 ^ 53 := by
    calc (num : Rat) / den * 2 ^ (-e)
        < 2 ^ ((num.log2 : Int) - den.log2 + 1) * 2 ^ (-e) :=
          mul_lt_mul_of_pos_right (quotient_lt hd.ne') (by positivity)
      _ = 2 ^ 53 := by
          have hsum : (num.log2 : Int) - den.log2 + 1 + -e = (53 : Nat) := by
            rw [he]
            push_cast
            ring
          rw [← zpow_add₀ two_ne_zero, hsum, zpow_natCast]
  obtain ⟨least, hleast, hlt⟩ : ∃ least, least ≤ exponentFor num den ∧
      (num : Rat) / den * 2 ^ (-least) < 2 ^ 53 := by
    unfold exponentFor
    simp only [← he, Nat.pow_eq]
    split
    · rename_i hsmall
      refine ⟨e - 1, le_max_right _ _, ?_⟩
      have hsmall := (rescale_lt_iff hd).mp ((Nat.div_lt_iff_lt_mul (rescale_pos hd)).mp hsmall)
      push_cast at hsmall
      rw [neg_sub, sub_eq_add_neg, zpow_add₀ two_ne_zero, zpow_one]
      linarith
    · exact ⟨e, le_max_right _ _, hfirst⟩
  refine (rescale_lt_iff hd).mpr (lt_of_le_of_lt ?_ (by exact_mod_cast hlt))
  refine mul_le_mul_of_nonneg_left ?_ (by positivity)
  exact zpow_le_zpow_right₀ one_le_two (by omega)

theorem minExponent_le : minExponent ≤ exponentFor num den := le_max_left _ _

theorem exponentFor_le : exponentFor num den ≤ max minExponent ((num.log2 : Int) - den.log2 - 52) := by
  unfold exponentFor
  dsimp only
  split <;> omega

theorem ofRatio?_spec (negative : Bool) (hn : num ≠ 0) (hd : 0 < den) :
    (2 ^ 53 ≤ (num : Rat) / den ∧ ofRatio? negative num den = none) ∨
    ∃ m e, ofRatio? negative num den = some ⟨negative, m, e⟩ ∧ m < 2 ^ 53 ∧ minExponent ≤ e ∧
      (m : Rat) * 2 ^ e = roundHalfEven (rescale num den (exponentFor num den)).1
        (rescale num den (exponentFor num den)).2 * 2 ^ exponentFor num den := by
  have hround : roundHalfEven (rescale num den (exponentFor num den)).1
      (rescale num den (exponentFor num den)).2 ≤ 2 ^ 53 := by
    refine roundHalfEven_le.trans ?_
    exact (Nat.div_lt_iff_lt_mul (rescale_pos hd)).mpr (rescale_lt hd)
  have hleast : minExponent ≤ exponentFor num den := minExponent_le
  have hhuge (h : maxExponent < exponentFor num den + 1) : (2 : Rat) ^ 53 ≤ num / den := by
    have hle : exponentFor num den ≤ max minExponent ((num.log2 : Int) - den.log2 - 52) :=
      exponentFor_le
    have hbits : (53 : Int) ≤ (num.log2 : Int) - den.log2 - 1 := by
      unfold maxExponent at h
      unfold minExponent at hle
      omega
    calc (2 : Rat) ^ 53 = 2 ^ (53 : Int) := by norm_num
      _ ≤ 2 ^ ((num.log2 : Int) - den.log2 - 1) := zpow_le_zpow_right₀ one_le_two hbits
      _ ≤ num / den := le_quotient hn hd
  unfold ofRatio?
  simp only [if_neg hn, Nat.pow_eq]
  split
  · rename_i hcarry
    rw [hcarry]
    by_cases hlarge : maxExponent < exponentFor num den + 1
    · exact .inl ⟨hhuge hlarge, if_pos hlarge⟩
    · refine .inr ⟨2 ^ 52, exponentFor num den + 1, if_neg hlarge, by decide, by omega, ?_⟩
      rw [zpow_add₀ two_ne_zero]
      push_cast
      ring
  · rename_i hsame
    by_cases hlarge : maxExponent < exponentFor num den
    · exact .inl ⟨hhuge (by omega), if_pos hlarge⟩
    · exact .inr ⟨_, _, if_neg hlarge, lt_of_le_of_ne hround hsame, hleast, rfl⟩

theorem holds_natCast {n : Nat} (h : n < 2 ^ 53) : Holds n := ⟨n, 0, h, by omega, by simp⟩

theorem Holds.nonneg (h : Holds x) : 0 ≤ x := by
  obtain ⟨m, k, -, -, rfl⟩ := h
  positivity

theorem Holds.sub_one (h : Holds x) (hx : 1 ≤ x) : Holds (x - 1) := by
  obtain ⟨m, k, hm, hk, rfl⟩ := h
  have hpos : (0 : Rat) < 2 ^ k := by positivity
  have hle : 2 ^ k ≤ m := by
    have hle := (one_le_div hpos).mp hx
    exact_mod_cast hle
  refine ⟨m - 2 ^ k, k, lt_of_le_of_lt (Nat.sub_le ..) hm, hk, ?_⟩
  push_cast [Nat.cast_sub hle]
  rw [sub_div, div_self hpos.ne']

theorem holds_of_mantissa {m : Nat} {e : Int} (hm : m < 2 ^ 53) (he : minExponent ≤ e)
    (hlt : (m : Rat) * 2 ^ e < 2 ^ 53) : Holds (m * 2 ^ e) := by
  unfold minExponent at he
  obtain hsign | hsign := le_or_gt 0 e
  · obtain ⟨k, rfl⟩ := Int.eq_ofNat_of_zero_le hsign
    rw [zpow_natCast] at hlt ⊢
    have hlt : m * 2 ^ k < 2 ^ 53 := by exact_mod_cast hlt
    exact ⟨m * 2 ^ k, 0, hlt, by omega, by simp⟩
  · obtain ⟨k, hk⟩ := Int.eq_ofNat_of_zero_le (a := -e) (by omega)
    have hexponent : e = -(k : Int) := by omega
    refine ⟨m, k, hm, by omega, ?_⟩
    rw [hexponent, zpow_neg, zpow_natCast, div_eq_mul_inv]

theorem roundRat_zero : roundRat 0 = 0 := by simp [roundRat, ofRatio?, toRat_eq]

theorem natAbs_num_div_den (hx : 0 ≤ x) : (x.num.natAbs : Rat) / x.den = x := by
  rw [Nat.cast_natAbs, abs_of_nonneg (Rat.num_nonneg.mpr hx), Rat.num_div_den]

theorem roundRat_spec (hx : 0 < x) :
    (2 ^ 53 ≤ x ∧ roundRat x = x) ∨
    ∃ (m : Nat) (e : Int), m < 2 ^ 53 ∧ minExponent ≤ e ∧ roundRat x = m * 2 ^ e ∧
      (m : Rat) * 2 ^ e =
        roundHalfEven (rescale x.num.natAbs x.den (exponentFor x.num.natAbs x.den)).1
          (rescale x.num.natAbs x.den (exponentFor x.num.natAbs x.den)).2 *
        2 ^ exponentFor x.num.natAbs x.den := by
  have hnum : 0 < x.num := Rat.num_pos.mpr hx
  have hsign : decide (x.num < 0) = false := decide_eq_false hnum.not_gt
  unfold roundRat
  rw [hsign]
  rcases ofRatio?_spec false (Int.natAbs_ne_zero.mpr hnum.ne') x.den_pos with
    ⟨hhuge, hnone⟩ | ⟨m, e, hsome, hm, he, hvalue⟩
  · rw [hnone]
    exact .inl ⟨natAbs_num_div_den hx.le ▸ hhuge, rfl⟩
  · rw [hsome]
    exact .inr ⟨m, e, hm, he, by simp [toRat_eq], hvalue⟩

theorem roundRat_nonneg (hx : 0 ≤ x) : 0 ≤ roundRat x := by
  rcases hx.eq_or_lt with rfl | hx
  · rw [roundRat_zero]
  · rcases roundRat_spec hx with ⟨-, hsame⟩ | ⟨m, e, -, -, hvalue, -⟩
    · rw [hsame]
      exact hx.le
    · rw [hvalue]
      positivity

theorem holds_roundRat (hx : 0 ≤ x) (hlt : roundRat x < 2 ^ 53) : Holds (roundRat x) := by
  rcases hx.eq_or_lt with rfl | hx
  · rw [roundRat_zero]
    exact ⟨0, 0, by decide, by decide, by simp⟩
  · rcases roundRat_spec hx with ⟨hhuge, hsame⟩ | ⟨m, e, hm, he, hvalue, -⟩
    · rw [hsame] at hlt
      exact absurd hlt hhuge.not_gt
    · rw [hvalue] at hlt ⊢
      exact holds_of_mantissa hm he hlt

theorem Holds.lt (h : Holds x) : x < 2 ^ 53 := by
  obtain ⟨m, k, hm, -, rfl⟩ := h
  have hone : (1 : Rat) ≤ 2 ^ k := one_le_pow₀ one_le_two
  exact lt_of_le_of_lt (div_le_self (Nat.cast_nonneg m) hone) (by exact_mod_cast hm)

theorem Holds.parts (h : Holds x) :
    x.num.natAbs < 2 ^ 53 ∧ ∃ k, k ≤ 1074 ∧ x.den = 2 ^ k := by
  obtain ⟨m, k, hm, hk, rfl⟩ := h
  have hcast : (m : Rat) / 2 ^ k = Rat.divInt m ((2 ^ k : Nat) : Int) := by
    rw [Rat.divInt_eq_div]
    push_cast
    rfl
  rw [hcast]
  constructor
  · have hdvd : (Rat.divInt m ((2 ^ k : Nat) : Int)).num.natAbs ∣ m :=
      Int.natAbs_dvd_natAbs.mpr (Rat.num_dvd m (by positivity))
    rcases m.eq_zero_or_pos with rfl | hpos
    · simp
    · exact lt_of_le_of_lt (Nat.le_of_dvd hpos hdvd) hm
  · have hdvd := Int.natCast_dvd_natCast.mp (Rat.den_dvd m ((2 ^ k : Nat) : Int))
    obtain ⟨j, hj, hden⟩ := (Nat.dvd_prime_pow Nat.prime_two).mp hdvd
    exact ⟨j, hj.trans hk, hden⟩

theorem rescale_dvd (num : Nat) {k : Nat} (he : e ≤ -(k : Int)) :
    (rescale num (2 ^ k) e).2 ∣ (rescale num (2 ^ k) e).1 := by
  unfold rescale
  simp only [Nat.pow_eq]
  split
  · obtain rfl : e = 0 := by omega
    obtain rfl : k = 0 := by omega
    simp
  · exact Dvd.dvd.mul_left (pow_dvd_pow 2 (by omega)) num

theorem Holds.roundRat (h : Holds x) : roundRat x = x := by
  rcases h.nonneg.eq_or_lt with rfl | hx
  · exact roundRat_zero
  rcases roundRat_spec hx with ⟨hhuge, -⟩ | ⟨m, e, -, -, hround, hvalue⟩
  · exact absurd h.lt hhuge.not_gt
  obtain ⟨hnum, k, hk, hden⟩ := h.parts
  have hne : x.num.natAbs ≠ 0 := Int.natAbs_ne_zero.mpr (Rat.num_pos.mpr hx).ne'
  have hbits : x.num.natAbs.log2 < 53 := (Nat.log2_lt hne).mpr hnum
  have hexponent : exponentFor x.num.natAbs x.den ≤ -(k : Int) := by
    refine exponentFor_le.trans ?_
    rw [hden, Nat.log2_two_pow]
    unfold minExponent
    omega
  have hdvd := rescale_dvd x.num.natAbs hexponent
  rw [← hden] at hdvd
  have hpos : 0 < (rescale x.num.natAbs x.den (exponentFor x.num.natAbs x.den)).2 :=
    rescale_pos x.den_pos
  rw [hround, hvalue, roundHalfEven_of_dvd hpos hdvd,
    Nat.cast_div hdvd (Nat.cast_ne_zero.mpr hpos.ne'), rescale_quotient, mul_assoc,
    ← zpow_add₀ two_ne_zero, neg_add_cancel, zpow_zero, mul_one, natAbs_num_div_den hx.le]

end Binary64

end AgentGateway
