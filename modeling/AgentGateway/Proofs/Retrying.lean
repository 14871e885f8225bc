import AgentGateway.Proofs.Admission
import AgentGateway.Proofs.Lookup
import AgentGateway.Proofs.Windows
/-!
How long a throttled message is told to wait, nothing but that time being rounded. It is cut down to
whole milliseconds, so that the permit may still be missing by less than one when it is over.
-/

namespace AgentGateway

open Validator (limitersOf)

theorem roundHalfEven_near {n d : Nat} (hd : 0 < d) :
    (n : Rat) / d ≤ roundHalfEven n d + 1 / 2 := by
  have hpos : (0 : Rat) < d := Nat.cast_pos.mpr hd
  have hround : 2 * n ≤ 2 * (d * roundHalfEven n d) + d := by
    have hsplit := Nat.div_add_mod n d
    have hlt := Nat.mod_lt n hd
    have heven : d * (n / d) ≤ d * (n / d + n / d % 2) :=
      Nat.mul_le_mul_left d (Nat.le_add_right _ _)
    simp only [roundHalfEven]
    split
    · omega
    · split
      · rw [Nat.mul_add]
        omega
      · omega
  have hround : 2 * (n : Rat) ≤ 2 * (d * roundHalfEven n d) + d := by exact_mod_cast hround
  rw [div_le_iff₀ hpos]
  linarith

namespace Bucket

variable {b : Bucket} {d : Nanos}

/-- The nanoseconds that a bucket takes from its last refill to its next permit, nothing rounded. -/
def shortfall (b : Bucket) : Rat := (1 - b.tokens) / b.rate * 1000000000

theorem shortfall_near (hrate : 0 < b.rate) (hnone : b.hasPermit = false) :
    b.shortfall ≤ b.retryAfter .exact + 1 / 2 := by
  have hlt : b.tokens < 1 := by simpa [hasPermit] using hnone
  have hsecs : 0 ≤ (1 - b.tokens) / b.rate := div_nonneg (by linarith) hrate.le
  have hnum : 0 ≤ ((1 - b.tokens) / b.rate).num := Rat.num_nonneg.mpr hsecs
  have hretry : b.retryAfter .exact = roundHalfEven
      (((1 - b.tokens) / b.rate).num.toNat * 1000000000) ((1 - b.tokens) / b.rate).den := by
    rw [retryAfter, if_neg (by simp [hnone, hrate])]
    rfl
  have hquot : b.shortfall = ((((1 - b.tokens) / b.rate).num.toNat * 1000000000 : Nat) : Rat) /
      ((1 - b.tokens) / b.rate).den := by
    have hcast : ((((1 - b.tokens) / b.rate).num.toNat : Nat) : Rat) =
        ((1 - b.tokens) / b.rate).num := by
      exact_mod_cast Int.toNat_of_nonneg hnum
    rw [Nat.cast_mul, hcast, mul_div_right_comm, Rat.num_div_den]
    simp [shortfall]
  rw [hretry, hquot]
  exact roundHalfEven_near (Rat.den_pos _)

theorem shortfall_nonpos (hrate : 0 < b.rate) (hone : b.hasPermit = true) : b.shortfall ≤ 0 := by
  have hone : 1 ≤ b.tokens := by simpa [hasPermit] using hone
  have hsecs : (1 - b.tokens) / b.rate ≤ 0 :=
    div_nonpos_of_nonpos_of_nonneg (by linarith) hrate.le
  simp only [shortfall]
  linarith

theorem hasPermit_refill_iff (hrate : 0 < b.rate) (hcap : 1 ≤ b.capacity) :
    (b.refill .exact (b.refilledAt + d)).hasPermit = true ↔ b.shortfall ≤ d := by
  have hden : (0 : Rat) < 1000000000 := by norm_num
  rw [refill_exact, Nat.add_sub_cancel_left]
  simp only [hasPermit, decide_eq_true_eq, le_min_iff, and_iff_left hcap, shortfall]
  rw [← le_div_iff₀ hden, div_le_iff₀ hrate]
  constructor
  · intro h
    linarith
  · intro h
    linarith

end Bucket

namespace BucketPair

def bucket : Dimension → BucketPair → Bucket
  | .perSecond, p => p.perSecond
  | .perMinute, p => p.perMinute

def Runs (p : BucketPair) (t : Nanos) : Prop :=
  ∃ rps rpm created taken, 0 < rps ∧ 0 < rpm ∧ p.Meters rps rpm created t taken

variable {p : BucketPair} {t u : Nanos} {d : Dimension}

theorem runs_full {rps rpm : Nat} (hs : 0 < rps) (hm : 0 < rpm) :
    (full .exact rps rpm t).Runs t := ⟨rps, rpm, t, [], hs, hm, meters_full⟩

namespace Runs

variable (h : p.Runs t)
include h

theorem mono (hu : t ≤ u) : p.Runs u := by
  obtain ⟨rps, rpm, created, taken, hs, hm, hp⟩ := h
  exact ⟨rps, rpm, created, taken, hs, hm, hp.mono hu⟩

theorem check : (p.check .exact t).2.Runs t := by
  obtain ⟨rps, rpm, created, taken, hs, hm, hp⟩ := h
  rcases hp.check le_rfl with ⟨-, -, -, hp⟩ | ⟨-, -, -, hp, -⟩
  · exact ⟨rps, rpm, created, _, hs, hm, hp⟩
  · exact ⟨rps, rpm, created, _, hs, hm, hp⟩

theorem gains (d : Dimension) :
    0 < (p.bucket d).rate ∧ 1 ≤ (p.bucket d).capacity ∧ (p.bucket d).refilledAt ≤ t := by
  obtain ⟨rps, rpm, created, taken, hs, hm, hp⟩ := h
  cases d with
  | perSecond =>
      simp only [bucket, hp.second.rate_eq, hp.second.capacity_eq]
      exact ⟨Nat.cast_pos.mpr hs, Nat.one_le_cast.mpr hs, hp.second.refilled⟩
  | perMinute =>
      simp only [bucket, hp.minute.rate_eq, hp.minute.capacity_eq]
      have hpos : (0 : Rat) < rpm := Nat.cast_pos.mpr hm
      exact ⟨by positivity, Nat.one_le_cast.mpr hm, hp.minute.refilled⟩

end Runs

theorem check_error {refusal : Refusal} (h : (p.check .exact t).1 = .error refusal) :
    ((p.check .exact t).2.bucket refusal.dimension).refilledAt = t ∧
      ((p.check .exact t).2.bucket refusal.dimension).hasPermit = false ∧
      ((p.check .exact t).2.bucket refusal.dimension).retryAfter .exact = refusal.retryAfter ∧
      (refusal.dimension = .perMinute → (p.check .exact t).2.perSecond.refilledAt = t ∧
        (p.check .exact t).2.perSecond.hasPermit = true) := by
  by_cases hs : (p.perSecond.refill .exact t).hasPermit = true
  · by_cases hm : (p.perMinute.refill .exact t).hasPermit = true
    · rw [check_admits hs hm] at h
      cases h
    · rw [check_perMinute hs (Bool.eq_false_iff.mpr hm)] at h ⊢
      cases h
      exact ⟨rfl, Bool.eq_false_iff.mpr hm, rfl, fun _ => ⟨rfl, hs⟩⟩
  · rw [check_perSecond (Bool.eq_false_iff.mpr hs)] at h ⊢
    cases h
    exact ⟨rfl, Bool.eq_false_iff.mpr hs, rfl, nofun⟩

theorem check_refuses : (∃ refusal, (p.check .exact t).1 = .error refusal ∧ refusal.dimension = d) ↔
    ((p.bucket d).refill .exact t).hasPermit = false ∧
      (d = .perMinute → (p.perSecond.refill .exact t).hasPermit = true) := by
  by_cases hs : (p.perSecond.refill .exact t).hasPermit = true
  · by_cases hm : (p.perMinute.refill .exact t).hasPermit = true
    · rw [check_admits hs hm]
      cases d <;> simp [bucket, hs, hm]
    · rw [check_perMinute hs (Bool.eq_false_iff.mpr hm)]
      cases d <;> simp [bucket, hs, hm]
  · rw [check_perSecond (Bool.eq_false_iff.mpr hs)]
    cases d <;> simp [bucket, hs]

theorem Runs.refused_again_iff (h : p.Runs t) {refusal : Refusal}
    (hr : (p.check .exact t).1 = .error refusal) {wait : Nanos} :
    (∃ again, ((p.check .exact t).2.check .exact (t + wait)).1 = .error again ∧
        again.dimension = refusal.dimension) ↔
      (wait : Rat) < ((p.check .exact t).2.bucket refusal.dimension).shortfall := by
  obtain ⟨hat, -, -, hsecond⟩ := check_error hr
  have hpermit {d : Dimension} (hd : ((p.check .exact t).2.bucket d).refilledAt = t) :
      (((p.check .exact t).2.bucket d).refill .exact (t + wait)).hasPermit = true ↔
        ((p.check .exact t).2.bucket d).shortfall ≤ wait := by
    obtain ⟨hrate, hcap, -⟩ := h.check.gains d
    have hiff := Bucket.hasPermit_refill_iff (d := wait) hrate hcap
    rwa [hd] at hiff
  rw [check_refuses, Bool.eq_false_iff, ne_eq, hpermit hat, not_le, and_iff_left]
  -- The bucket of the second only gains permits in between.
  intro hminute
  obtain ⟨hat, hone⟩ := hsecond hminute
  have hlack : ((p.check .exact t).2.bucket .perSecond).shortfall ≤ 0 :=
    Bucket.shortfall_nonpos (h.check.gains .perSecond).1 hone
  exact (hpermit (d := .perSecond) hat).mpr (hlack.trans (Nat.cast_nonneg wait))

end BucketPair

namespace Session

structure Rated (v : ValidationSettings) (s : Session) : Prop where
  perSecond : 0 < s.overrides.perSecond.getD v.requestsPerSecond
  perMinute : 0 < s.overrides.perMinute.getD v.requestsPerMinute

def Screened (v : ValidationSettings) (m : Message) : Prop :=
  Validator.checkMethod v.allowed m = .ok () ∧
    Validator.checkSize v.maxIdBytes v.maxParamsBytes m = .ok ()

/-- A session at a time, of which the buckets are the work of the messages validated so far. It may
lose them, and all else of it may change. -/
inductive Served (v : ValidationSettings) : Nanos → Session → Prop
  | unmetered {t : Nanos} {s : Session} : s.Rated v → s.limiters = none → Served v t s
  | later {t u : Nanos} {s : Session} : Served v t s → t ≤ u → Served v u s
  | validated {t : Nanos} {s : Session} (m : Message) :
      Served v t s → Served v t ((Pipeline.standard v).validate t s m).2
  | changed {t : Nanos} {s s' : Session} :
      Served v t s → s'.limiters = s.limiters → s'.limiters.isSome → Served v t s'

variable {v : ValidationSettings} {t : Nanos} {s : Session} {m : Message}

theorem checkMethod_ne {allowed : AllowList} {refusal : Refusal} :
    Validator.checkMethod allowed m ≠ .error (.throttled refusal) := by
  unfold Validator.checkMethod
  split <;> split <;> simp

theorem checkSize_ne {maxId maxParams : Nat} {refusal : Refusal} :
    Validator.checkSize maxId maxParams m ≠ .error (.throttled refusal) := by
  simp only [Validator.checkSize]
  by_cases hid : maxId < (m.id.map RequestId.byteLength).getD 0
  · simp [hid, bind, Except.bind]
  · by_cases hparams : maxParams < m.paramsSize.getD 0
    · simp [hid, hparams]
    · simp [hid, hparams, pure, Except.pure]

theorem screen_ne {refusal : Refusal} : screen v m ≠ .error (.throttled refusal) := by
  unfold screen
  cases hmethod : Validator.checkMethod v.allowed m with
  | error rejection =>
      rintro ⟨⟩
      exact checkMethod_ne hmethod
  | ok _ => exact checkSize_ne

theorem validate_screened :
    (Screened v m ∧ (Pipeline.standard v).validate t s m =
      (((limitersOf v t s).check v.rounding t).1.mapError .throttled,
        { s with limiters := some ((limitersOf v t s).check v.rounding t).2 })) ∨
    (¬ Screened v m ∧ ∃ rejection, (Pipeline.standard v).validate t s m = (.error rejection, s) ∧
      ∀ refusal, rejection ≠ .throttled refusal) := by
  rw [validate_standard, Screened, ← screen_ok]
  cases hscreen : screen v m with
  | ok _ => exact .inl ⟨rfl, rfl⟩
  | error rejection =>
      refine .inr ⟨by simp, rejection, rfl, ?_⟩
      rintro refusal rfl
      exact screen_ne hscreen

theorem validate_eq_throttled {refusal : Refusal} {s' : Session}
    (h : (Pipeline.standard v).validate t s m = (.error (.throttled refusal), s')) :
    Screened v m ∧ ((limitersOf v t s).check v.rounding t).1 = .error refusal ∧
      s'.limiters = some ((limitersOf v t s).check v.rounding t).2 := by
  rcases validate_screened (v := v) (t := t) (s := s) (m := m) with
    ⟨hscreened, heq⟩ | ⟨-, rejection, heq, hne⟩
  · rw [heq] at h
    obtain ⟨hr, rfl⟩ := Prod.mk.inj h
    cases hc : ((limitersOf v t s).check v.rounding t).1 with
    | ok _ =>
        rw [hc] at hr
        cases hr
    | error e =>
        rw [hc] at hr
        cases hr
        exact ⟨hscreened, rfl, rfl⟩
  · rw [heq] at h
    cases h
    exact absurd rfl (hne refusal)

theorem runs_limitersOf (hv : v.rounding = .exact)
    (h : (s.limiters = none ∧ s.Rated v) ∨ ∃ p, s.limiters = some p ∧ p.Runs t) :
    (limitersOf v t s).Runs t := by
  rcases h with ⟨hnone, hrated⟩ | ⟨p, hp, hruns⟩
  · rw [limitersOf, hnone, Option.getD_none, hv]
    exact BucketPair.runs_full hrated.perSecond hrated.perMinute
  · rw [limitersOf, hp, Option.getD_some]
    exact hruns

theorem Served.leveled (hv : v.rounding = .exact) (h : s.Served v t) :
    (s.limiters = none ∧ s.Rated v) ∨ ∃ p, s.limiters = some p ∧ p.Runs t := by
  induction h with
  | unmetered hrated hnone => exact .inl ⟨hnone, hrated⟩
  | later _ hu ih => exact ih.imp_right fun ⟨p, hp, hruns⟩ => ⟨p, hp, hruns.mono hu⟩
  | @validated t s m _ ih =>
      rcases validate_screened (v := v) (t := t) (s := s) (m := m) with
        ⟨-, heq⟩ | ⟨-, rejection, heq, -⟩
      · rw [heq]
        have hruns := (runs_limitersOf hv ih).check
        exact .inr ⟨_, rfl, hv ▸ hruns⟩
      · rwa [heq]
  | changed _ hsame hsome ih =>
      rw [hsame] at hsome ⊢
      refine .inr (ih.resolve_left fun hnone => ?_)
      rw [hnone.1] at hsome
      cases hsome

theorem Served.runs (hv : v.rounding = .exact) (h : s.Served v t) : (limitersOf v t s).Runs t :=
  runs_limitersOf hv (h.leveled hv)

def Throttles (v : ValidationSettings) (t : Nanos) (s : Session) (m : Message) (d : Dimension) :
    Prop :=
  ∃ refusal, ((Pipeline.standard v).validate t s m).1 = .error (.throttled refusal) ∧
    refusal.dimension = d

theorem throttles_iff {d : Dimension} : s.Throttles v t m d ↔ Screened v m ∧
    ∃ refusal,
      ((limitersOf v t s).check v.rounding t).1 = .error refusal ∧ refusal.dimension = d := by
  constructor
  · rintro ⟨refusal, hr, hd⟩
    obtain ⟨hscreened, hcheck, -⟩ := validate_eq_throttled (Prod.ext hr rfl)
    exact ⟨hscreened, refusal, hcheck, hd⟩
  · rintro ⟨hscreened, refusal, hcheck, hd⟩
    rcases validate_screened (v := v) (t := t) (s := s) (m := m) with ⟨-, heq⟩ | ⟨hout, -⟩
    · refine ⟨refusal, ?_, hd⟩
      rw [heq, hcheck]
      rfl
    · exact absurd hscreened hout

/-- A message that is throttled is told to come back after `ms` milliseconds. If nothing else comes
in before, the next one is refused by the same bucket at that time if and only if it gets as far as
the buckets and the delay, cut down to whole milliseconds, is shorter than the exact time to the
next permit; and it is not refused by that bucket if it comes a millisecond later or more. -/
theorem throttled_again_iff (hv : v.rounding = .exact) (h : s.Served v t) {s' : Session}
    {refusal : Refusal}
    (hr : (Pipeline.standard v).validate t s m = (.error (.throttled refusal), s')) :
    ∃ p ms, s'.limiters = some p ∧
      (Rejection.throttled refusal).toFault.toRpc.data =
        some (.ofFields [("dimension", .string refusal.dimension.name),
          ("retry_after_ms", .nat ms)]) ∧
      ∀ later : Session, later.limiters = some p → ∀ next : Message,
        (later.Throttles v (t + Nanos.ofMillis ms) next refusal.dimension ↔
          Screened v next ∧ (Nanos.ofMillis ms : Rat) < (p.bucket refusal.dimension).shortfall) ∧
        ∀ n, ms < n → ¬ later.Throttles v (t + Nanos.ofMillis n) next refusal.dimension := by
  have hruns := h.runs hv
  obtain ⟨-, hcheck, hleft⟩ := validate_eq_throttled hr
  rw [hv] at hcheck hleft
  have hagain {later : Session} (hl : later.limiters = s'.limiters) {next : Message} {n : Nat} :
      later.Throttles v (t + Nanos.ofMillis n) next refusal.dimension ↔ Screened v next ∧
        (Nanos.ofMillis n : Rat) <
          (((limitersOf v t s).check .exact t).2.bucket refusal.dimension).shortfall := by
    rw [throttles_iff, hv, limitersOf, hl, hleft, Option.getD_some, hruns.refused_again_iff hcheck]
  refine ⟨_, max (Nanos.toMillis refusal.retryAfter) 1, hleft, rfl, fun later hl next => ?_⟩
  have hl := hl.trans hleft.symm
  refine ⟨hagain hl, fun n hn hthrottled => ?_⟩
  obtain ⟨-, hnone, hretry, -⟩ := BucketPair.check_error hcheck
  have hnear := Bucket.shortfall_near (hruns.check.gains refusal.dimension).1 hnone
  have hwhole : refusal.retryAfter + 1 ≤ Nanos.ofMillis n :=
    (Nat.div_lt_iff_lt_mul (by decide)).mp (lt_of_le_of_lt (le_max_left _ _) hn)
  have hwhole : (refusal.retryAfter : Rat) + 1 ≤ Nanos.ofMillis n := by exact_mod_cast hwhole
  have hlack := ((hagain hl).mp hthrottled).2
  rw [hretry] at hnear
  linarith

theorem throttled_again_third : ∃ v s s' refusal, v.rounding = .exact ∧ s.Served v 0 ∧
    (Pipeline.standard v).validate 0 s (.request (.number 1) "ping" none) =
      (.error (.throttled refusal), s') ∧
    (Rejection.throttled refusal).toFault.toRpc.data =
      some (.ofFields [("dimension", .string "per-second"), ("retry_after_ms", .nat 333)]) ∧
    s'.Throttles v (0 + Nanos.ofMillis 333) (.request (.number 1) "ping" none) .perSecond := by
  let v : ValidationSettings := { requestsPerSecond := 3, rounding := .exact }
  let ping : Message := .request (.number 1) "ping" none
  let pinged (s : Session) : Session := ((Pipeline.standard v).validate 0 s ping).2
  let s := pinged (pinged (pinged (.opened "a" "o" .server {} 1 0)))
  have hserved : s.Served v 0 :=
    .validated ping (.validated ping (.validated ping (.unmetered ⟨by decide, by decide⟩ rfl)))
  have hr : (Pipeline.standard v).validate 0 s ping =
      (.error (.throttled ⟨.perSecond, 333333333⟩), pinged s) :=
    Prod.ext (by decide +kernel) rfl
  obtain ⟨p, ms, hp, hms, hlater⟩ := throttled_again_iff rfl hserved hr
  have hadvised : (Rejection.throttled ⟨.perSecond, 333333333⟩).toFault.toRpc.data =
      some (.ofFields [("dimension", .string "per-second"), ("retry_after_ms", .nat 333)]) := rfl
  have hobject := Option.some.inj (hadvised.symm.trans hms)
  have hms₃ : (333 : Int) = ms := by
    -- The keys are read back by lookup: how strings are ordered is of no matter.
    have hread := congrArg (·.get? "retry_after_ms") hobject
    simpa [Json.Value.ofFields, Json.Value.get?, KeyOrder.ofList, KeyOrder.insertAll,
      KeyOrder.lookup_insert, Json.Value.nat] using hread
  obtain rfl : 333 = ms := Int.ofNat.inj hms₃
  have hlack : (p.bucket .perSecond).shortfall = 1000000000 / 3 := by
    obtain rfl : (pinged s).limiters.get (by decide +kernel) = p := by simp [hp]
    decide +kernel
  refine ⟨v, s, pinged s, _, rfl, hserved, hr, hms,
    (hlater (pinged s) hp ping).1.mpr ⟨⟨by decide, by decide⟩, ?_⟩⟩
  rw [hlack]
  norm_num [Nanos.ofMillis]

end Session

end AgentGateway
