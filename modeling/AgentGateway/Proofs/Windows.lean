import AgentGateway.Throttle.Pair
import Mathlib.Algebra.Order.Field.Rat
import Mathlib.Tactic.Linarith
import Mathlib.Tactic.Positivity
import Mathlib.Tactic.Ring
/-!
What the two buckets of a session admit, nothing being rounded. A bucket holds what the tightest
window leaves: of all instants since the bucket was made, the one from which the capacity and what
has been gained since exceed the permits taken since by the least.
-/

namespace AgentGateway

theorem Rounding.seconds_exact (d : Nanos) : exact.seconds d = (d : Rat) / 1000000000 := by
  have hsplit : ((1000000000 * (d / 1000000000) + d % 1000000000 : Nat) : Rat) = d :=
    congrArg _ (Nat.div_add_mod d 1000000000)
  push_cast at hsplit
  simp only [seconds, exact, add, div, id_eq, Nanos.toSecs]
  linarith

/-- The permits that a bucket may give in a window of that length. -/
def allowance (rate capacity : Rat) (length : Nanos) : Rat :=
  capacity + rate * ((length : Rat) / 1000000000)

def takenIn (taken : List Nanos) (s t : Nanos) : Nat :=
  taken.countP fun u => s ≤ u ∧ u ≤ t

/-- That one more permit can be taken at an instant: no window that ends there has more than its
allowance then. -/
def Fits (rate capacity : Rat) (created : Nanos) (taken : List Nanos) (t : Nanos) : Prop :=
  ∀ s, created ≤ s → s ≤ t → (takenIn taken s t : Rat) + 1 ≤ allowance rate capacity (t - s)

section Windows

variable {rate capacity : Rat} {taken : List Nanos} {s t u : Nanos}

theorem allowance_zero : allowance rate capacity 0 = capacity := by
  simp [allowance]

theorem allowance_add (c d : Nanos) :
    allowance rate capacity (c + d) =
      allowance rate capacity c + rate * ((d : Rat) / 1000000000) := by
  simp only [allowance]
  push_cast
  ring

theorem le_allowance (h : 0 ≤ rate) (d : Nanos) : capacity ≤ allowance rate capacity d := by
  have hgain : 0 ≤ rate * ((d : Rat) / 1000000000) := by positivity
  exact le_add_of_nonneg_right hgain

theorem takenIn_later (h : ∀ x ∈ taken, x ≤ t) (hu : t ≤ u) : takenIn taken s u = takenIn taken s t :=
  List.countP_congr fun x hx => by
    simp only [decide_eq_true_eq]
    exact and_congr_right fun _ => iff_of_true ((h x hx).trans hu) (h x hx)

theorem takenIn_eq_zero (h : ∀ x ∈ taken, x ≤ u) (hs : u < s) : takenIn taken s t = 0 :=
  List.countP_eq_zero.mpr fun x hx => by
    simp only [decide_eq_true_eq]
    exact fun hin => absurd (hin.1.trans (h x hx)) hs.not_ge

theorem takenIn_snoc (hs : s ≤ t) : takenIn (taken ++ [t]) s t = takenIn taken s t + 1 := by
  simp [takenIn, hs]

end Windows

namespace Bucket

variable {b : Bucket} {created t u : Nanos} {taken : List Nanos}

theorem refill_exact : b.refill .exact t = { b with
    tokens := min (b.tokens + ((t - b.refilledAt : Nat) : Rat) / 1000000000 * b.rate) b.capacity,
    refilledAt := t } := by
  simp only [refill, Rounding.seconds_exact, min_def]
  rfl

theorem refill_refill (hrate : 0 ≤ b.rate) (hu : b.refilledAt ≤ u) (ht : u ≤ t) :
    (b.refill .exact u).refill .exact t = b.refill .exact t := by
  simp only [refill_exact, Bucket.mk.injEq, true_and, and_true]
  have hgain : 0 ≤ ((t - u : Nat) : Rat) / 1000000000 * b.rate := by positivity
  have hsplit : ((t - b.refilledAt : Nat) : Rat) =
      ((t - u : Nat) : Rat) + ((u - b.refilledAt : Nat) : Rat) := by
    rw [← Nat.cast_add, Nat.sub_add_sub_cancel ht hu]
  have hall : ((t - b.refilledAt : Nat) : Rat) / 1000000000 * b.rate =
      ((u - b.refilledAt : Nat) : Rat) / 1000000000 * b.rate +
        ((t - u : Nat) : Rat) / 1000000000 * b.rate := by
    rw [hsplit]
    ring
  rw [hall, ← add_assoc, ← min_add_add_right, min_assoc]
  congr 1
  exact min_eq_right (le_add_of_nonneg_right hgain)

/-- That the tokens of a bucket are what the tightest window since its making leaves. -/
structure Leveled (b : Bucket) (created : Nanos) (taken : List Nanos) : Prop where
  gains : 0 ≤ b.rate
  held : 0 ≤ b.tokens
  since : created ≤ b.refilledAt
  past : ∀ u ∈ taken, u ≤ b.refilledAt
  within : ∀ s, created ≤ s → s ≤ b.refilledAt →
    takenIn taken s b.refilledAt + b.tokens ≤ allowance b.rate b.capacity (b.refilledAt - s)
  tight : ∃ s, created ≤ s ∧ s ≤ b.refilledAt ∧
    takenIn taken s b.refilledAt + b.tokens = allowance b.rate b.capacity (b.refilledAt - s)

theorem leveled_full {rate : Rat} {capacity : Nat} (h : 0 ≤ rate) :
    (full rate capacity created).Leveled created [] where
  gains := h
  held := Nat.cast_nonneg capacity
  since := le_rfl
  past _ hu := absurd hu List.not_mem_nil
  within s _ _ := by
    have hfull : (capacity : Rat) ≤ allowance rate capacity (created - s) := le_allowance h _
    simpa [takenIn, full] using hfull
  tight := ⟨created, le_rfl, le_rfl, by simp [takenIn, full, allowance_zero]⟩

namespace Leveled

variable (h : b.Leveled created taken)
include h

theorem tokens_le : b.tokens ≤ b.capacity := by
  have := h.within b.refilledAt h.since le_rfl
  rw [Nat.sub_self, allowance_zero] at this
  have htaken : (0 : Rat) ≤ takenIn taken b.refilledAt b.refilledAt := Nat.cast_nonneg _
  linarith

theorem grows {s : Nanos} (hs : s ≤ b.refilledAt) (ht : b.refilledAt ≤ t) :
    takenIn taken s t = takenIn taken s b.refilledAt ∧
      allowance b.rate b.capacity (t - s) = allowance b.rate b.capacity (b.refilledAt - s) +
        b.rate * (((t - b.refilledAt : Nat) : Rat) / 1000000000) := by
  refine ⟨takenIn_later h.past ht, ?_⟩
  rw [← allowance_add, Nat.add_comm, Nat.sub_add_sub_cancel ht hs]

theorem refill (ht : b.refilledAt ≤ t) : (b.refill .exact t).Leveled created taken := by
  have hgain : 0 ≤ ((t - b.refilledAt : Nat) : Rat) / 1000000000 * b.rate :=
    mul_nonneg (by positivity) h.gains
  rw [refill_exact]
  refine ⟨h.gains, le_min (add_nonneg h.held hgain) (h.held.trans h.tokens_le),
    h.since.trans ht, fun u hu => (h.past u hu).trans ht, fun s hc hs => ?_, ?_⟩
  · -- A window that begins after the last refill is empty, and the capacity covers it.
    dsimp only at hs ⊢
    by_cases hold : s ≤ b.refilledAt
    · have := h.within s hc hold
      rw [(h.grows hold ht).1, (h.grows hold ht).2]
      have := min_le_left
        (b.tokens + ((t - b.refilledAt : Nat) : Rat) / 1000000000 * b.rate) b.capacity
      linarith
    · have hfull : b.capacity ≤ allowance b.rate b.capacity (t - s) := le_allowance h.gains _
      rw [takenIn_eq_zero h.past (Nat.lt_of_not_le hold), Nat.cast_zero, zero_add]
      exact (min_le_right _ _).trans hfull
  · dsimp only
    by_cases hfull : b.tokens + ((t - b.refilledAt : Nat) : Rat) / 1000000000 * b.rate ≤ b.capacity
    · obtain ⟨s, hc, hs, heq⟩ := h.tight
      refine ⟨s, hc, hs.trans ht, ?_⟩
      rw [(h.grows hs ht).1, (h.grows hs ht).2, min_eq_left hfull]
      linarith
    · -- The bucket overflows, so that some time has passed and the window of one instant is new.
      have hlt : b.refilledAt < t := by
        refine lt_of_le_of_ne ht fun heq => hfull ?_
        rw [← heq, Nat.sub_self]
        simpa using h.tokens_le
      refine ⟨t, h.since.trans ht, le_rfl, ?_⟩
      rw [takenIn_eq_zero h.past hlt, Nat.sub_self, allowance_zero,
        min_eq_right (le_of_not_ge hfull)]
      simp

theorem hasPermit_iff (ht : b.refilledAt ≤ t) :
    (b.refill .exact t).hasPermit = true ↔ Fits b.rate b.capacity created taken t := by
  have hl := h.refill ht
  have hat : (b.refill .exact t).refilledAt = t := rfl
  simp only [hasPermit, decide_eq_true_eq]
  constructor
  · intro hone s hc hs
    have : _ ≤ allowance b.rate b.capacity _ := hl.within s hc hs
    rw [hat] at this
    linarith
  · intro hfits
    obtain ⟨s, hc, hs, heq⟩ := hl.tight
    have heq : _ = allowance b.rate b.capacity _ := heq
    rw [hat] at hs heq
    have := hfits s hc hs
    linarith

theorem take (hone : b.hasPermit = true) :
    (b.take .exact).Leveled created (taken ++ [b.refilledAt]) := by
  have hone : 1 ≤ b.tokens := by simpa [hasPermit] using hone
  have htokens : (b.take .exact).tokens = b.tokens - 1 := rfl
  have hat : (b.take .exact).refilledAt = b.refilledAt := rfl
  refine ⟨h.gains, ?_, h.since, fun u hu => ?_, fun s hc hs => ?_, ?_⟩
  · rw [htokens]
    linarith
  · rcases List.mem_append.mp hu with hu | hu
    · exact h.past u hu
    · exact (List.mem_singleton.mp hu).le
  · rw [hat] at hs ⊢
    refine le_trans (le_of_eq ?_) (h.within s hc hs)
    rw [htokens]
    rw [takenIn_snoc hs]
    push_cast
    ring
  · obtain ⟨s, hc, hs, heq⟩ := h.tight
    refine ⟨s, hc, hs, Eq.trans ?_ heq⟩
    rw [htokens, hat, takenIn_snoc hs]
    push_cast
    ring

end Leveled

structure Meters (b : Bucket) (rate capacity : Rat) (created latest : Nanos)
    (taken : List Nanos) : Prop where
  leveled : b.Leveled created taken
  rate_eq : b.rate = rate
  capacity_eq : b.capacity = capacity
  refilled : b.refilledAt ≤ latest

namespace Meters

variable {rate capacity : Rat} {latest : Nanos}
  (h : b.Meters rate capacity created latest taken)
include h

theorem mono (ht : latest ≤ t) : b.Meters rate capacity created t taken :=
  { h with refilled := h.refilled.trans ht }

theorem refill (ht : latest ≤ t) : (b.refill .exact t).Meters rate capacity created t taken :=
  ⟨h.leveled.refill (h.refilled.trans ht), h.rate_eq, h.capacity_eq, le_rfl⟩

theorem hasPermit_iff (ht : latest ≤ t) :
    (b.refill .exact t).hasPermit = true ↔ Fits rate capacity created taken t := by
  rw [← h.rate_eq, ← h.capacity_eq]
  exact h.leveled.hasPermit_iff (h.refilled.trans ht)

theorem take (ht : latest ≤ t) (hone : (b.refill .exact t).hasPermit = true) :
    ((b.refill .exact t).take .exact).Meters rate capacity created t (taken ++ [t]) :=
  ⟨(h.leveled.refill (h.refilled.trans ht)).take hone, h.rate_eq, h.capacity_eq, le_rfl⟩

theorem refill_refill (hu : latest ≤ u) (ht : u ≤ t) :
    (b.refill .exact u).refill .exact t = b.refill .exact t :=
  Bucket.refill_refill h.leveled.gains (h.refilled.trans hu) ht

theorem tokens : 0 ≤ b.tokens ∧ b.tokens ≤ capacity :=
  ⟨h.leveled.held, h.capacity_eq ▸ h.leveled.tokens_le⟩

end Meters

end Bucket

namespace BucketPair

def checks (r : Rounding) : List Nanos → BucketPair → List (Nanos × Except Refusal Unit) × BucketPair
  | [], p => ([], p)
  | t :: ts, p =>
    let rest := checks r ts (p.check r t).2
    ((t, (p.check r t).1) :: rest.1, rest.2)

def admitted (log : List (Nanos × Except Refusal Unit)) : List Nanos :=
  (log.filter fun e => e.2.isOk).map Prod.fst

structure Meters (p : BucketPair) (rps rpm : Nat) (created latest : Nanos)
    (taken : List Nanos) : Prop where
  second : p.perSecond.Meters rps rps created latest taken
  minute : p.perMinute.Meters (rpm / 60) rpm created latest taken

section Check

variable {r : Rounding} {p : BucketPair} {t : Nanos}

theorem check_perSecond (hs : (p.perSecond.refill r t).hasPermit = false) :
    p.check r t = (.error ⟨.perSecond, (p.perSecond.refill r t).retryAfter r⟩,
      { p with perSecond := p.perSecond.refill r t }) := by
  simp [check, hs]

theorem check_perMinute (hs : (p.perSecond.refill r t).hasPermit = true)
    (hm : (p.perMinute.refill r t).hasPermit = false) :
    p.check r t = (.error ⟨.perMinute, (p.perMinute.refill r t).retryAfter r⟩,
      ⟨p.perSecond.refill r t, p.perMinute.refill r t⟩) := by
  simp [check, hs, hm]

theorem check_admits (hs : (p.perSecond.refill r t).hasPermit = true)
    (hm : (p.perMinute.refill r t).hasPermit = true) :
    p.check r t = (.ok (), ⟨(p.perSecond.refill r t).take r, (p.perMinute.refill r t).take r⟩) := by
  simp [check, hs, hm]

/-- That two pairs are not told apart by any check from that time on. -/
structure Agree (t : Nanos) (p q : BucketPair) : Prop where
  second : ∀ u, t ≤ u → p.perSecond.refill .exact u = q.perSecond.refill .exact u
  minute : ∀ u, t ≤ u → p.perMinute.refill .exact u = q.perMinute.refill .exact u

namespace Agree

variable {q : BucketPair} {u : Nanos} (h : Agree t p q)

theorem refl : Agree t p p := ⟨fun _ _ => rfl, fun _ _ => rfl⟩

include h

theorem trans {p' : BucketPair} (h' : Agree t q p') : Agree t p p' :=
  ⟨fun v hv => (h.second v hv).trans (h'.second v hv),
    fun v hv => (h.minute v hv).trans (h'.minute v hv)⟩

theorem mono (hu : t ≤ u) : Agree u p q :=
  ⟨fun v hv => h.second v (hu.trans hv), fun v hv => h.minute v (hu.trans hv)⟩

theorem check (hu : t ≤ u) : (p.check .exact u).1 = (q.check .exact u).1 ∧
    Agree u (p.check .exact u).2 (q.check .exact u).2 := by
  simp only [BucketPair.check, h.second u hu, h.minute u hu]
  -- Refused by the second, each pair keeps its bucket of the minute as it was.
  split
  · exact ⟨rfl, fun _ _ => rfl, (h.mono hu).minute⟩
  · split
    · exact ⟨rfl, refl⟩
    · exact ⟨rfl, refl⟩

end Agree

end Check

variable {p : BucketPair} {rps rpm : Nat} {created latest t : Nanos} {taken : List Nanos}

theorem meters_full : (full .exact rps rpm created).Meters rps rpm created created [] where
  second := ⟨Bucket.leveled_full (Nat.cast_nonneg rps), rfl, rfl, le_rfl⟩
  minute := by
    have hrate : (0 : Rat) ≤ rpm / 60 := by positivity
    exact ⟨Bucket.leveled_full hrate, rfl, rfl, le_rfl⟩

namespace Meters

variable (h : p.Meters rps rpm created latest taken)
include h

theorem mono (ht : latest ≤ t) : p.Meters rps rpm created t taken :=
  ⟨h.second.mono ht, h.minute.mono ht⟩

theorem check (ht : latest ≤ t) :
    ((p.check .exact t).1 = .ok () ∧
      Fits rps rps created taken t ∧ Fits (rpm / 60) rpm created taken t ∧
        (p.check .exact t).2.Meters rps rpm created t (taken ++ [t])) ∨
    (∃ refusal, (p.check .exact t).1 = .error refusal ∧
      ((refusal.dimension = .perSecond ∧ ¬ Fits rps rps created taken t) ∨
        (refusal.dimension = .perMinute ∧ Fits rps rps created taken t ∧
          ¬ Fits (rpm / 60) rpm created taken t)) ∧
      (p.check .exact t).2.Meters rps rpm created t taken ∧
        Agree t (p.check .exact t).2 p) := by
  rw [← h.second.hasPermit_iff ht, ← h.minute.hasPermit_iff ht]
  by_cases hs : (p.perSecond.refill .exact t).hasPermit = true
  · by_cases hm : (p.perMinute.refill .exact t).hasPermit = true
    · rw [check_admits hs hm]
      exact .inl ⟨rfl, hs, hm, h.second.take ht hs, h.minute.take ht hm⟩
    · rw [check_perMinute hs (Bool.eq_false_iff.mpr hm)]
      exact .inr ⟨_, rfl, .inr ⟨rfl, hs, hm⟩, ⟨h.second.refill ht, h.minute.refill ht⟩,
        fun u hu => h.second.refill_refill ht hu, fun u hu => h.minute.refill_refill ht hu⟩
  · rw [check_perSecond (Bool.eq_false_iff.mpr hs)]
    exact .inr ⟨_, rfl, .inl ⟨rfl, hs⟩, ⟨h.second.refill ht, h.minute.mono ht⟩,
      fun u hu => h.second.refill_refill ht hu, fun u _ => rfl⟩

theorem checks {times : List Nanos} {q : BucketPair} (hq : Agree latest p q)
    (ordered : (latest :: times).Pairwise (· ≤ ·)) (ht : ∀ u ∈ latest :: times, u ≤ t) :
    (p.checks .exact times).2.Meters rps rpm created t
        (taken ++ admitted (p.checks .exact times).1) ∧
      Agree t (p.checks .exact times).2
        (q.checks .exact (admitted (p.checks .exact times).1)).2 := by
  induction times generalizing p q latest taken with
  | nil =>
    have ht : latest ≤ t := ht latest (List.mem_singleton.mpr rfl)
    exact ⟨by simpa [BucketPair.checks, admitted] using h.mono ht, hq.mono ht⟩
  | cons u us ih =>
    obtain ⟨hu, ordered⟩ := List.pairwise_cons.mp ordered
    have hu : latest ≤ u := hu u List.mem_cons_self
    have ht : ∀ v ∈ u :: us, v ≤ t := fun v hv => ht v (List.mem_cons_of_mem _ hv)
    rcases h.check hu with ⟨hok, -, -, hp⟩ | ⟨refusal, herr, -, hp, hsame⟩
    · have hlog : admitted (p.checks .exact (u :: us)).1 =
          u :: admitted ((p.check .exact u).2.checks .exact us).1 := by
        simp [BucketPair.checks, admitted, hok, Except.isOk, Except.toBool]
      rw [hlog, List.append_cons]
      exact ih hp (hq.check hu).2 ordered ht
    · have hlog : admitted (p.checks .exact (u :: us)).1 =
          admitted ((p.check .exact u).2.checks .exact us).1 := by
        simp [BucketPair.checks, admitted, herr, Except.isOk, Except.toBool]
      rw [hlog]
      exact ih hp (hsame.trans (hq.mono hu)) ordered ht

end Meters

/-- What a new pair answers after any checks at times that do not decrease. The next check passes if
and only if, by either bucket, no window that ends with it takes more than its allowance. The bucket
of the minute refuses only what that of the second lets through. The answer is the same as if the
checks that were refused had never been made, and neither bucket ever holds less than nothing or
more than its capacity. -/
theorem check_windows {times : List Nanos} (ordered : (created :: (times ++ [t])).Pairwise (· ≤ ·))
    {log : List (Nanos × Except Refusal Unit)}
    (asked : (full .exact rps rpm created).checks .exact times = (log, p)) :
    ((p.check .exact t).1 = .ok () ↔
      Fits rps rps created (admitted log) t ∧ Fits (rpm / 60) rpm created (admitted log) t) ∧
    (∀ refusal, (p.check .exact t).1 = .error refusal →
      (refusal.dimension = .perSecond ↔ ¬ Fits rps rps created (admitted log) t) ∧
      (refusal.dimension = .perMinute ↔ Fits rps rps created (admitted log) t)) ∧
    (p.check .exact t).1 =
      (((full .exact rps rpm created).checks .exact (admitted log)).2.check .exact t).1 ∧
    (0 ≤ p.perSecond.tokens ∧ p.perSecond.tokens ≤ rps) ∧
    0 ≤ p.perMinute.tokens ∧ p.perMinute.tokens ≤ rpm := by
  rw [← List.cons_append, List.pairwise_append] at ordered
  obtain ⟨ordered, -, hlast⟩ := ordered
  have hlast : ∀ u ∈ created :: times, u ≤ t := fun u hu => hlast u hu t (List.mem_singleton.mpr rfl)
  have hnew : (full .exact rps rpm created).Meters rps rpm created created [] := meters_full
  obtain ⟨hp, hsame⟩ := hnew.checks Agree.refl ordered hlast
  rw [asked, List.nil_append] at hp
  rw [asked] at hsame
  refine ⟨?_, ?_, (hsame.check le_rfl).1, hp.second.tokens, hp.minute.tokens⟩
  · rcases hp.check le_rfl with ⟨hok, hs, hm, -⟩ | ⟨refusal, herr, hwhy, -⟩
    · exact iff_of_true hok ⟨hs, hm⟩
    · refine iff_of_false (by rw [herr]; nofun) fun hfits => ?_
      rcases hwhy with ⟨-, hs⟩ | ⟨-, -, hm⟩
      · exact hs hfits.1
      · exact hm hfits.2
  · intro refusal hrefused
    rcases hp.check le_rfl with ⟨hok, -⟩ | ⟨refusal', herr, hwhy, -⟩
    · exact absurd (hok.symm.trans hrefused) (by nofun)
    · obtain rfl : refusal' = refusal := by simpa using herr.symm.trans hrefused
      rcases hwhy with ⟨hd, hs⟩ | ⟨hd, hs, -⟩
      · simp [hd, hs]
      · simp [hd, hs]

theorem check_windows_minute : ∃ log p refusal,
    (full .exact 1 2 0).checks .exact [0, 500000000, 1000000000] = (log, p) ∧
    admitted log = [0, 1000000000] ∧ (p.check .exact 2000000000).1 = .error refusal ∧
    refusal.dimension = .perMinute ∧ Fits (1 : Nat) (1 : Nat) 0 (admitted log) 2000000000 ∧
    ¬ Fits ((2 : Nat) / 60) (2 : Nat) 0 (admitted log) 2000000000 := by
  have hrefused : (((full .exact 1 2 0).checks .exact [0, 500000000, 1000000000]).2.check .exact
      2000000000).1 = .error ⟨.perMinute, 28000000000⟩ := by decide +kernel
  obtain ⟨hiff, hwhy, -⟩ := check_windows (t := 2000000000) (by decide)
    (Prod.eta ((full .exact 1 2 0).checks .exact [0, 500000000, 1000000000])).symm
  have hs := (hwhy _ hrefused).2.mp rfl
  refine ⟨_, _, _, (Prod.eta _).symm, by decide +kernel, hrefused, rfl, hs, fun hm => ?_⟩
  exact absurd (hrefused.symm.trans (hiff.mpr ⟨hs, hm⟩)) (by nofun)

end BucketPair

end AgentGateway
