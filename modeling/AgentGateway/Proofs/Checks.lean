import AgentGateway.Proofs.Doubles
import AgentGateway.Proofs.Isolation
import AgentGateway.Proofs.Layouts
import AgentGateway.Proofs.Retrying
/-!
What the standard checks decide on a message, and what they charge its session for it. The buckets
count in numbers of 64 bits, but never beyond 32 bits, where a permit is a whole token: it is taken
without being rounded, and a refill at the same time adds nothing.
-/

namespace AgentGateway

open Binary64 (Holds roundRat_nonneg roundRat_zero)
open Validator (limitersOf)

theorem Rounding.seconds_nonneg {d : Nanos} : 0 ≤ binary64.seconds d := by
  refine roundRat_nonneg (add_nonneg (roundRat_nonneg ?_) (roundRat_nonneg ?_))
  · exact Nat.cast_nonneg _
  · positivity

theorem Rounding.seconds_zero : binary64.seconds 0 = 0 := by
  simp [seconds, add, div, binary64, Nanos.toSecs, roundRat_zero]

namespace Bucket

def heldAt (r : Rounding) (now : Nanos) (b : Bucket) : Rat := (b.refill r now).tokens

structure Sized (b : Bucket) : Prop where
  gains : 0 ≤ b.rate
  filled : 0 ≤ b.tokens
  capacity : ∃ n : Nat, n < 2 ^ 32 ∧ b.capacity = n

variable {b : Bucket} {r : Rounding} {now : Nanos}

theorem Sized.capacity_lt (h : b.Sized) : b.capacity < 2 ^ 53 := by
  obtain ⟨n, hn, hcapacity⟩ := h.capacity
  have hlt : (n : Rat) < 2 ^ 53 := by exact_mod_cast lt_trans hn (by decide)
  exact hcapacity ▸ hlt

theorem hasPermit_refill : (b.refill r now).hasPermit = true ↔ 1 ≤ b.heldAt r now :=
  decide_eq_true_iff

theorem heldAt_le : b.heldAt r now ≤ b.capacity := by
  simp only [heldAt, refill]
  split
  · assumption
  · exact le_rfl

theorem Sized.holds (h : b.Sized) : Holds (b.heldAt .binary64 now) := by
  have hgained :
      0 ≤ Rounding.binary64.mul (Rounding.binary64.seconds (now - b.refilledAt)) b.rate :=
    roundRat_nonneg (mul_nonneg Rounding.seconds_nonneg h.gains)
  simp only [heldAt, refill]
  split
  · rename_i hle
    exact Binary64.holds_roundRat (add_nonneg h.filled hgained) (lt_of_le_of_lt hle h.capacity_lt)
  · obtain ⟨n, hn, hcapacity⟩ := h.capacity
    exact hcapacity ▸ Binary64.holds_natCast (lt_trans hn (by decide))

theorem Sized.refill (h : b.Sized) : (b.refill .binary64 now).Sized :=
  ⟨h.gains, h.holds.nonneg, h.capacity⟩

theorem heldAt_refilled (hat : b.refilledAt = now) (hholds : Holds b.tokens)
    (hle : b.tokens ≤ b.capacity) : b.heldAt .binary64 now = b.tokens := by
  have hgained :
      Rounding.binary64.mul (Rounding.binary64.seconds (now - b.refilledAt)) b.rate = 0 := by
    rw [hat, Nat.sub_self, Rounding.seconds_zero]
    simp [Rounding.mul, Rounding.binary64, roundRat_zero]
  have hfilled : Rounding.binary64.add b.tokens 0 = b.tokens := by
    simp [Rounding.add, Rounding.binary64, hholds.roundRat]
  simp only [heldAt, Bucket.refill, hgained, hfilled, if_pos hle]

theorem Sized.heldAt_refill (h : b.Sized) :
    (b.refill .binary64 now).heldAt .binary64 now = b.heldAt .binary64 now :=
  heldAt_refilled rfl h.holds heldAt_le

theorem Sized.take (h : b.Sized) (hone : 1 ≤ b.heldAt .binary64 now) :
    ((b.refill .binary64 now).take .binary64).Sized ∧
      ((b.refill .binary64 now).take .binary64).heldAt .binary64 now =
        b.heldAt .binary64 now - 1 := by
  have hrest : Holds (b.heldAt .binary64 now - 1) := h.holds.sub_one hone
  have htokens : ((b.refill .binary64 now).take .binary64).tokens = b.heldAt .binary64 now - 1 :=
    hrest.roundRat
  have hle : b.heldAt .binary64 now - 1 ≤ b.capacity :=
    (sub_le_self _ zero_le_one).trans heldAt_le
  exact ⟨⟨h.gains, htokens ▸ hrest.nonneg, h.capacity⟩,
    (heldAt_refilled rfl (htokens ▸ hrest) (htokens ▸ hle)).trans htokens⟩

end Bucket

theorem Dimension.all {P : Dimension → Prop} (h : P .perSecond ∧ P .perMinute) (d : Dimension) :
    P d := by
  cases d with
  | perSecond => exact h.1
  | perMinute => exact h.2

namespace BucketPair

def Sized (p : BucketPair) : Prop := ∀ d, (p.bucket d).Sized

theorem sized_full {rps rpm : Nat} {now : Nanos} (hs : rps < 2 ^ 32) (hm : rpm < 2 ^ 32) :
    (full .binary64 rps rpm now).Sized :=
  Dimension.all ⟨⟨Nat.cast_nonneg rps, Nat.cast_nonneg rps, rps, hs, rfl⟩,
    ⟨roundRat_nonneg (by positivity), Nat.cast_nonneg rpm, rpm, hm, rfl⟩⟩

variable {p : BucketPair}

theorem Sized.check (h : p.Sized) (now : Nanos) : (p.check .binary64 now).2.Sized ∧
    ∀ d, ((p.check .binary64 now).2.bucket d).heldAt .binary64 now =
      if (p.check .binary64 now).1 = .ok () then (p.bucket d).heldAt .binary64 now - 1
      else (p.bucket d).heldAt .binary64 now := by
  have hsecond := h .perSecond
  have hminute := h .perMinute
  simp only [bucket] at hsecond hminute
  by_cases hs : (p.perSecond.refill .binary64 now).hasPermit = true
  · by_cases hm : (p.perMinute.refill .binary64 now).hasPermit = true
    · have hsecond := hsecond.take (Bucket.hasPermit_refill.mp hs)
      have hminute := hminute.take (Bucket.hasPermit_refill.mp hm)
      rw [check_admits hs hm]
      exact ⟨Dimension.all ⟨hsecond.1, hminute.1⟩, Dimension.all ⟨hsecond.2, hminute.2⟩⟩
    · rw [check_perMinute hs (Bool.eq_false_iff.mpr hm)]
      exact ⟨Dimension.all ⟨hsecond.refill, hminute.refill⟩,
        Dimension.all ⟨hsecond.heldAt_refill, hminute.heldAt_refill⟩⟩
  · rw [check_perSecond (Bool.eq_false_iff.mpr hs)]
    exact ⟨Dimension.all ⟨hsecond.refill, hminute⟩,
      Dimension.all ⟨hsecond.heldAt_refill, rfl⟩⟩

end BucketPair

structure ValidationSettings.Typed (v : ValidationSettings) : Prop where
  rounding : v.rounding = .binary64
  perSecond : v.requestsPerSecond < 2 ^ 32
  perMinute : v.requestsPerMinute < 2 ^ 32

def RateEvent.isMessage : RateEvent → Bool
  | .message _ _ => true
  | _ => false

namespace Session

structure Metered (s : Session) : Prop where
  perSecond : ∀ n, s.overrides.perSecond = some n → n < 2 ^ 32
  perMinute : ∀ n, s.overrides.perMinute = some n → n < 2 ^ 32
  limiters : ∀ p, s.limiters = some p → p.Sized

def held (v : ValidationSettings) (now : Nanos) (d : Dimension) (s : Session) : Rat :=
  ((limitersOf v now s).bucket d).heldAt v.rounding now

def flaws (v : ValidationSettings) (m : Message) : List Rejection :=
  let idLength := (m.id.map RequestId.byteLength).getD 0
  let paramsSize := m.paramsSize.getD 0
  (if m.method.any v.allowed.contains || m.isResponse then [] else [.invalidMethod m.methodName])
    ++ (if idLength ≤ v.maxIdBytes then [] else [.idTooLong idLength v.maxIdBytes])
    ++ if paramsSize ≤ v.maxParamsBytes then [] else [.paramsTooLarge paramsSize v.maxParamsBytes]

/-- What there is to object to in a message on a session, in the order in which it is checked. -/
def objections (v : ValidationSettings) (now : Nanos) (m : Message) (s : Session) :
    List Rejection :=
  let refusal (d : Dimension) : Rejection :=
    .throttled ⟨d, (((limitersOf v now s).bucket d).refill v.rounding now).retryAfter v.rounding⟩
  flaws v m ++ [Dimension.perSecond, .perMinute].flatMap fun d =>
    if 1 ≤ s.held v now d then [] else [refusal d]

variable {v : ValidationSettings} {now : Nanos} {m : Message} {s s' : Session}
  {outcome : Except Rejection Unit}

theorem sized_limitersOf (hv : v.Typed) (hs : s.Metered) (now : Nanos) :
    (limitersOf v now s).Sized := by
  unfold limitersOf
  cases hl : s.limiters with
  | some p => exact hs.limiters p hl
  | none =>
      rw [Option.getD_none, hv.rounding]
      refine BucketPair.sized_full ?_ ?_
      · cases ho : s.overrides.perSecond with
        | none => exact hv.perSecond
        | some n => exact hs.perSecond n ho
      · cases ho : s.overrides.perMinute with
        | none => exact hv.perMinute
        | some n => exact hs.perMinute n ho

theorem checkMethod_eq : Validator.checkMethod v.allowed m =
    if m.method.any v.allowed.contains || m.isResponse then .ok ()
    else .error (.invalidMethod m.methodName) := by
  unfold Validator.checkMethod Message.methodName
  cases hm : m.method with
  | some name =>
      have hresponse : m.isResponse = false := by simp [Message.isResponse, hm]
      simp [hresponse]
  | none => simp

theorem checkSize_eq {maxId maxParams : Nat} : Validator.checkSize maxId maxParams m =
    if (m.id.map RequestId.byteLength).getD 0 ≤ maxId then
      if m.paramsSize.getD 0 ≤ maxParams then .ok ()
      else .error (.paramsTooLarge (m.paramsSize.getD 0) maxParams)
    else .error (.idTooLong ((m.id.map RequestId.byteLength).getD 0) maxId) := by
  simp only [Validator.checkSize, ← Nat.not_le]
  by_cases hid : (m.id.map RequestId.byteLength).getD 0 ≤ maxId
  · by_cases hparams : m.paramsSize.getD 0 ≤ maxParams
    · simp [hid, hparams, pure, Except.pure]
    · simp [hid, hparams]
  · simp [hid, bind, Except.bind]

theorem screen_eq : screen v m = (flaws v m).head?.elim (.ok ()) .error := by
  unfold screen flaws
  rw [checkMethod_eq, checkSize_eq]
  by_cases hmethod : (m.method.any v.allowed.contains || m.isResponse) = true
  · simp only [if_pos hmethod, bind, Except.bind, List.nil_append]
    split
    · split <;> rfl
    · rfl
  · rw [if_neg hmethod, if_neg hmethod]
    rfl

theorem check_eq : ((limitersOf v now s).check v.rounding now).1.mapError .throttled =
    (([Dimension.perSecond, .perMinute].flatMap fun d =>
      if 1 ≤ s.held v now d then []
      else [Rejection.throttled ⟨d, (((limitersOf v now s).bucket d).refill v.rounding
        now).retryAfter v.rounding⟩]).head?.elim (.ok ()) .error : Except Rejection Unit) := by
  simp only [List.flatMap_cons, List.flatMap_nil, held, ← Bucket.hasPermit_refill,
    BucketPair.bucket]
  by_cases hs : ((limitersOf v now s).perSecond.refill v.rounding now).hasPermit = true
  · by_cases hm : ((limitersOf v now s).perMinute.refill v.rounding now).hasPermit = true
    · rw [BucketPair.check_admits hs hm, if_pos hs, if_pos hm]
      rfl
    · rw [BucketPair.check_perMinute hs (Bool.eq_false_iff.mpr hm), if_pos hs, if_neg hm]
      rfl
  · rw [BucketPair.check_perSecond (Bool.eq_false_iff.mpr hs), if_neg hs]
    rfl

theorem outcome_eq : ((Pipeline.standard v).validate now s m).1 =
    (s.objections v now m).head?.elim (.ok ()) .error := by
  rw [validate_standard, screen_eq, objections, List.head?_append]
  cases (flaws v m).head? with
  | some rejection => rfl
  | none => exact check_eq

theorem getD_map_le {α : Type} {o : Option α} {f : α → Nat} {n : Nat} :
    (o.map f).getD 0 ≤ n ↔ ∀ a, o = some a → f a ≤ n := by
  cases o <;> simp

theorem admitted_iff : ((Pipeline.standard v).validate now s m).1 = .ok () ↔
    ((∃ name, m.method = some name ∧ v.allowed.contains name = true) ∨
      m.method = none ∧ ∃ id, m.id = some id ∧ id.isEmpty = false) ∧
    (∀ id, m.id = some id → id.byteLength ≤ v.maxIdBytes) ∧
    (∀ params, m.params = some params → params.compact.utf8ByteSize ≤ v.maxParamsBytes) ∧
    1 ≤ s.held v now .perSecond ∧ 1 ≤ s.held v now .perMinute := by
  have hmethod : Validator.checkMethod v.allowed m = .ok () ↔
      (∃ name, m.method = some name ∧ v.allowed.contains name = true) ∨
        m.method = none ∧ ∃ id, m.id = some id ∧ id.isEmpty = false := by
    rw [checkMethod_eq, ite_eq_left_iff]
    simp [Message.isResponse, Option.any_eq_true]
    grind
  rw [Pipeline.standard_ok, hmethod, Validator.checkSize_ok, BucketPair.check_ok,
    Message.paramsSize, getD_map_le, getD_map_le, Bucket.hasPermit_refill, Bucket.hasPermit_refill,
    and_assoc]
  rfl

theorem held_validate (hv : v.Typed) (hs : s.Metered) (now : Nanos) (m : Message) :
    ((Pipeline.standard v).validate now s m).2.Metered ∧
    ∀ d, ((Pipeline.standard v).validate now s m).2.held v now d =
      if ((Pipeline.standard v).validate now s m).1 = .ok () then s.held v now d - 1
      else s.held v now d := by
  obtain ⟨hsized, hheld⟩ := (sized_limitersOf hv hs now).check now
  rw [validate_standard]
  cases screen v m with
  | error rejection => exact ⟨hs, fun d => by simp⟩
  | ok _ =>
      rw [hv.rounding]
      refine ⟨⟨hs.perSecond, hs.perMinute, fun p hp => ?_⟩, fun d => ?_⟩
      · exact Option.some.inj hp ▸ hsized
      · unfold held
        rw [hv.rounding]
        exact (hheld d).trans (if_congr mapError_eq_ok.symm rfl rfl)

theorem validate_of_limiters {t : Session} {p : BucketPair} (hs : s.limiters = some p)
    (ht : t.limiters = some p) (now : Nanos) (m : Message) :
    ((Pipeline.standard v).validate now s m).1 = ((Pipeline.standard v).validate now t m).1 ∧
      ∃ q, ((Pipeline.standard v).validate now s m).2.limiters = some q ∧
        ((Pipeline.standard v).validate now t m).2.limiters = some q := by
  have hsame : limitersOf v now s = p ∧ limitersOf v now t = p := by
    simp [limitersOf, hs, ht]
  rw [validate_standard, validate_standard, hsame.1, hsame.2]
  cases screen v m with
  | error _ => exact ⟨rfl, p, hs, ht⟩
  | ok _ => exact ⟨rfl, _, rfl, rfl⟩

theorem verdicts_messages {t : Session} {p : BucketPair} {es : List RateEvent}
    (hs : s.limiters = some p) (ht : t.limiters = some p) (hes : .shut ∉ es) :
    s.verdicts v es = t.verdicts v (es.filter RateEvent.isMessage) := by
  induction es generalizing s t p with
  | nil => rfl
  | cons e es ih =>
      obtain ⟨hne, hrest⟩ := List.ne_and_not_mem_of_not_mem_cons hes
      cases e with
      | shut => exact absurd rfl hne
      | overrides o => exact ih (s := { s with overrides := o }) hs ht hrest
      | message now m =>
          obtain ⟨houtcome, q, hsq, htq⟩ := validate_of_limiters (v := v) hs ht now m
          rw [List.filter_cons_of_pos rfl]
          exact congrArg₂ List.cons houtcome (ih hsq htq hrest)

structure Judged (v : ValidationSettings) (now : Nanos) (m : Message) (s : Session)
    (outcome : Except Rejection Unit) (s' : Session) : Prop where
  admitted_iff : outcome = .ok () ↔
    ((∃ name, m.method = some name ∧ v.allowed.contains name = true) ∨
      m.method = none ∧ ∃ id, m.id = some id ∧ id.isEmpty = false) ∧
    (∀ id, m.id = some id → id.byteLength ≤ v.maxIdBytes) ∧
    (∀ params, m.params = some params → params.compact.utf8ByteSize ≤ v.maxParamsBytes) ∧
    1 ≤ s.held v now .perSecond ∧ 1 ≤ s.held v now .perMinute
  refused_iff : ∀ rejection,
    outcome = .error rejection ↔ (s.objections v now m).head? = some rejection
  charged : outcome = .ok () → ∀ d, s'.held v now d = s.held v now d - 1
  uncharged : outcome ≠ .ok () → ∀ d, s'.held v now d = s.held v now d
  /-- A message that does not get as far as the buckets leaves the session as it was. -/
  untouched : ∀ rejection, outcome = .error rejection →
    (∀ refusal, rejection ≠ .throttled refusal) → s' = s
  metered : s'.Metered ∧ ∃ limiters, s' = { s with limiters }
  /-- Overrides that come once there are buckets change nothing in what is decided later. -/
  settled : s'.limiters.isSome → ∀ es, .shut ∉ es →
    s'.verdicts v es = s'.verdicts v (es.filter RateEvent.isMessage)

/-- The standard checks admit a message if and only if its method is allowed or it is a response,
its id and its params are not too large and both buckets of its session have a permit, and else the
first objection is what they refuse it for. A permit is taken from each bucket if the message is
admitted, and from none if it is not. -/
theorem validate_judged (hv : v.Typed) (hs : s.Metered)
    (h : (Pipeline.standard v).validate now s m = (outcome, s')) :
    s.Judged v now m outcome s' := by
  obtain rfl : ((Pipeline.standard v).validate now s m).1 = outcome := congrArg Prod.fst h
  obtain rfl : ((Pipeline.standard v).validate now s m).2 = s' := congrArg Prod.snd h
  obtain ⟨hmetered, hheld⟩ := held_validate hv hs now m
  refine ⟨admitted_iff, fun rejection => ?_, fun hok d => ?_, fun hok d => ?_,
    fun rejection hr hne => ?_, ⟨hmetered, validate_eq v now s m⟩, fun hmade es hes => ?_⟩
  · rw [outcome_eq]
    cases (s.objections v now m).head? <;> simp
  · rw [hheld, if_pos hok]
  · rw [hheld, if_neg hok]
  · rcases validate_screened (v := v) (t := now) (s := s) (m := m) with ⟨-, heq⟩ | ⟨-, _, heq, -⟩
    · rw [heq] at hr
      cases hc : ((limitersOf v now s).check v.rounding now).1 with
      | ok _ =>
          rw [hc] at hr
          cases hr
      | error refusal =>
          rw [hc] at hr
          cases hr
          exact absurd rfl (hne refusal)
    · rw [heq]
  · obtain ⟨p, hp⟩ := Option.isSome_iff_exists.mp hmade
    exact verdicts_messages hp hp hes

theorem validate_judged_ping :
    let v : ValidationSettings := { requestsPerSecond := 2 }
    let ping : Message := .request (.number 1) "ping" none
    let pinged (s : Session) : Session := ((Pipeline.standard v).validate 0 s ping).2
    let opened : Session := .opened "a" "o" .server {} 1 0
    let s := pinged opened
    v.Typed ∧ s.Metered ∧ s.Judged v 0 ping (.ok ()) (pinged s) ∧
      s.held v 0 .perSecond = 1 ∧ (pinged s).held v 0 .perSecond = 0 ∧
      (pinged s).Judged v 0 ping (.error (.throttled ⟨.perSecond, 500000000⟩))
        (pinged (pinged s)) := by
  intro v ping pinged opened s
  have hv : v.Typed := ⟨rfl, by decide, by decide⟩
  have hopened : opened.Metered := ⟨nofun, nofun, nofun⟩
  have hs : s.Metered := (held_validate hv hopened 0 ping).1
  have hsecond : s.Judged v 0 ping (.ok ()) (pinged s) :=
    validate_judged hv hs (Prod.ext (by decide +kernel) rfl)
  exact ⟨hv, hs, hsecond, by decide +kernel, by decide +kernel,
    validate_judged hv hsecond.metered.1 (Prod.ext (by decide +kernel) rfl)⟩

end Session

end AgentGateway
