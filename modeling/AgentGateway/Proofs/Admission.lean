import AgentGateway.Proofs.Awaited
import AgentGateway.Proofs.Roster
/-!
What becomes of messages from peers that are not requests. A response has to pass the same checks as
a request; one that does not is answered like a request, and is lost to whoever waits for it.
-/

namespace AgentGateway

open Validator (limitersOf)

/-- That a response passes the checks of the session on which it comes in: its id is neither empty
nor too long, its params are not too large, and there is a permit in both buckets. -/
structure Session.Admits (v : ValidationSettings) (now : Nanos) (m : Message) (s : Session) :
    Prop where
  named : m.isResponse = true
  short : (m.id.map RequestId.byteLength).getD 0 ≤ v.maxIdBytes
  small : m.paramsSize.getD 0 ≤ v.maxParamsBytes
  perSecond : ((limitersOf v now s).perSecond.refill v.rounding now).hasPermit = true
  perMinute : ((limitersOf v now s).perMinute.refill v.rounding now).hasPermit = true

section Checks

variable {v : ValidationSettings} {now : Nanos} {s : Session} {m : Message}

theorem Validator.checkMethod_response {allowed : AllowList} (hm : m.method = none) :
    checkMethod allowed m = .ok () ↔ m.isResponse = true := by
  simp only [checkMethod, hm]
  split <;> simp [*]

theorem Validator.checkSize_ok {maxId maxParams : Nat} :
    checkSize maxId maxParams m = .ok () ↔
      (m.id.map RequestId.byteLength).getD 0 ≤ maxId ∧ m.paramsSize.getD 0 ≤ maxParams := by
  simp only [checkSize]
  by_cases hid : maxId < (m.id.map RequestId.byteLength).getD 0
  · simp [hid, Nat.not_le.mpr hid, bind, Except.bind]
  · by_cases hparams : maxParams < m.paramsSize.getD 0
    · simp [hid, hparams, Nat.not_le.mpr hparams]
    · simp [hid, hparams, Nat.not_lt.mp hid, Nat.not_lt.mp hparams, pure, Except.pure]

theorem BucketPair.check_ok {round : Rounding} {b : BucketPair} :
    (b.check round now).1 = .ok () ↔
      (b.perSecond.refill round now).hasPermit = true ∧
        (b.perMinute.refill round now).hasPermit = true := by
  simp only [check]
  cases (b.perSecond.refill round now).hasPermit <;>
    cases (b.perMinute.refill round now).hasPermit <;> simp

theorem Pipeline.standard_ok : ((standard v).validate now s m).1 = .ok () ↔
    Validator.checkMethod v.allowed m = .ok () ∧
      Validator.checkSize v.maxIdBytes v.maxParamsBytes m = .ok () ∧
        ((limitersOf v now s).check v.rounding now).1 = .ok () := by
  rw [Session.validate_standard, ← and_assoc, ← Session.screen_ok]
  cases Session.screen v m with
  | error e => simp
  | ok _ =>
      cases h : ((limitersOf v now s).check v.rounding now).1 <;> simp [h, Except.mapError]

end Checks

namespace Gateway

variable {g₀ g : Gateway} {ms : List Moment} {m : Message} {r : SessionRef} {s : Session}

theorem validate_response (hm : m.method = none) :
    (g.validate r s m).1 = .ok () ↔ s.Admits g.settings.validation g.now m := by
  have hlimiters : limitersOf g.settings.validation g.now (s.touch g.now) =
      limitersOf g.settings.validation g.now s := rfl
  refine Pipeline.standard_ok.trans ?_
  rw [Validator.checkMethod_response hm, Validator.checkSize_ok, BucketPair.check_ok, hlimiters]
  constructor
  · rintro ⟨hn, ⟨hid, hparams⟩, hs, hmin⟩
    exact ⟨hn, hid, hparams, hs, hmin⟩
  · rintro ⟨hn, hid, hparams, hs, hmin⟩
    exact ⟨hn, ⟨hid, hparams⟩, hs, hmin⟩

theorem handle_admitted (hm : m.method = none) {id : String} (hget : g.get id = .ok (r, s))
    (ha : s.Admits g.settings.validation g.now m) :
    g.handle id m =
      (.done none, ((g.validate r s m).2.resolve r { m with processed := true }).2) := by
  have hv := (validate_response (r := r) hm).mpr ha
  unfold handle
  rw [hget]
  dsimp only
  generalize g.validate r s m = x at hv
  obtain ⟨result, g₁⟩ := x
  obtain rfl : result = .ok () := hv
  simp only [handleValid, hm]

theorem handle_refused (hm : m.method = none) {id : String} (hget : g.get id = .ok (r, s))
    (ha : ¬ s.Admits g.settings.validation g.now m) : ∃ rejection : Rejection,
      g.handle id m = (.done (m.id.bind fun id => reply id rejection.toFault),
        { (g.validate r s m).2 with metrics :=
            (g.validate r s m).2.metrics.rejected rejection.reason }) := by
  have hv := mt (validate_response (r := r) hm).mp ha
  unfold handle
  rw [hget]
  dsimp only
  generalize g.validate r s m = x at hv
  obtain ⟨result, g₁⟩ := x
  cases result with
  | ok _ => exact absurd rfl hv
  | error rejection => exact ⟨rejection, rfl⟩

/-- A message that is not a request is answered if it is a response that does not pass the checks of
a live session, and in no other case. -/
theorem unasked_reply_iff (hm : m.isRequest = false) (id : String) :
    ∃ reply, (g.handle id m).1 = .done reply ∧
      (reply.isSome ↔ ∃ k r s, m.id = some k ∧ g.get id = .ok (r, s) ∧
        ¬ s.Admits g.settings.validation g.now m) ∧
      ∀ answer, reply = some answer → answer.id = m.id ∧ answer.error.isSome := by
  cases hget : g.get id with
  | error e => exact ⟨none, by simp [handle, hget, hm], by simp, by simp⟩
  | ok x =>
      obtain ⟨r, s⟩ := x
      cases hmethod : m.method with
      | some name =>
          have hid : m.id = none := by simpa [Message.isRequest, hmethod] using hm
          refine ⟨none, ?_, by simp [hid], by simp⟩
          unfold handle
          rw [hget]
          dsimp only
          split
          · simp [hid]
          · simp [handleValid, hmethod, hid]
      | none =>
          by_cases ha : s.Admits g.settings.validation g.now m
          · refine ⟨none, by rw [handle_admitted hmethod hget ha], ?_, by simp⟩
            simp [ha]
          · obtain ⟨rejection, hreply⟩ := handle_refused hmethod hget ha
            refine ⟨_, congrArg Prod.fst hreply, ?_, ?_⟩
            · cases m.id with
              | none => simp
              | some k => exact ⟨fun _ => ⟨k, r, s, rfl, rfl, ha⟩, fun _ => rfl⟩
            · cases m.id <;> simp [reply, Message.failure]

theorem unasked_reply_long : ∃ ms g reply,
    Run (Gateway.new { validation := { maxIdBytes := 2 } } []) ms g ∧
      Message.isRequest (.success (.number 12345) (.object [])) = false ∧
      (g.handle "a" (.success (.number 12345) (.object []))).1 = .done (some reply) := by
  obtain ⟨ms, g, hr, -, h⟩ := Run.exists_of_replay [.openSession ["a"] "owner" .server {}]
    (Gateway.new { validation := { maxIdBytes := 2 } } [])
    (fun _ g => g.settings.validation.maxIdBytes = 2 ∧ (g.find? "a").isSome) (by decide +kernel)
  simp only [decide_eq_true_eq, Option.isSome_iff_exists] at h
  obtain ⟨hmax, ⟨r, s⟩, hfound⟩ := h
  have hm : Message.isRequest (.success (.number 12345) (.object [])) = false := by decide
  obtain ⟨reply, hreply, hiff, -⟩ := unasked_reply_iff (g := g) hm "a"
  have hget : g.get "a" = .ok (r, s) := by rw [get, hfound]
  have hsome : reply.isSome := hiff.mpr ⟨_, r, s, rfl, hget, fun ha => by
    have hshort := ha.short
    rw [hmax] at hshort
    exact absurd hshort (by decide)⟩
  obtain ⟨answer, rfl⟩ := Option.isSome_iff_exists.mp hsome
  exact ⟨ms, g, answer, hr, hm, hreply⟩

/-- A response to a request that waits is handed to the holder of its ticket if it passes the checks
of the session; if it does not, the request goes on waiting. -/
theorem handed_over (h₀ : g₀.IsNew) (hr : Run g₀ ms g) {e : Pending} {w : Waiter}
    (hs : g.session? r = some s) (he : e ∈ s.pending) (hw : g.waiter? e.ticket = some w)
    (hm : m.method = none) (hid : m.id = some e.id) :
    (s.Admits g.settings.validation g.now m →
      (g.handle s.id m).2.waiter? e.ticket =
        some { w with state := .answered { m with processed := true } } ∧
      ¬ (g.handle s.id m).2.Pends r e) ∧
    (¬ s.Admits g.settings.validation g.now m →
      (g.handle s.id m).2.waiter? e.ticket = some w ∧ (g.handle s.id m).2.Pends r e) := by
  have hkept := hr.kept h₀
  have hopen : s.status ≠ .closed := fun hc => hkept.unclosed r e ⟨s, hs, he⟩ ⟨s, hs, hc⟩
  have hget : g.get s.id = .ok (r, s) := (hr.registered h₀).get hs hopen
  have hv : Carried g (g.validate r s m).2 := carried_validate hs
  have hwaiter : (g.validate r s m).2.waiter? e.ticket = some w := by
    rw [waiter?, hv.waiters]
    exact hw
  have hpends : (g.validate r s m).2.Pends r e := by
    have hr := hv.sessions r
    rw [hs] at hr
    obtain ⟨s', hs', hc⟩ := hr
    exact ⟨s', hs', hc.pending ▸ he⟩
  constructor
  · intro ha
    rw [handle_admitted hm hget ha]
    have hboard : ((g.validate r s m).2.boardWith fun q => g.held? q).Kept := hkept.step hv.step
    obtain ⟨hanswer, hgone⟩ := hboard.resolved (m := { m with processed := true }) hpends hid
    rw [← boardWith_resolve] at hanswer hgone
    refine ⟨hanswer.trans ?_, hgone⟩
    exact congrArg _ hwaiter
  · intro ha
    obtain ⟨rejection, hhandle⟩ := handle_refused hm hget ha
    rw [hhandle]
    exact ⟨hwaiter, hpends⟩

theorem handed_over_late : ∃ ms g s e w,
    Run (Gateway.new { validation := { requestsPerSecond := 1 } } []) ms g ∧
      g.session? 0 = some s ∧ e ∈ s.pending ∧ g.waiter? e.ticket = some w ∧ w.state = .waiting ∧
      (g.handle s.id (.success e.id (.object []))).2.waiter? e.ticket = some w ∧
      (g.handle s.id (.success e.id (.object []))).2.Pends 0 e := by
  obtain ⟨ms, g, hr, -, h⟩ := Run.exists_of_replay
    [.openSession ["a"] "owner" .client {}, .request "a" "ping" none none, .control 0, .control 0,
      .submit "a" (.request (.string "x") "ping" none), .control 1]
    (Gateway.new { validation := { requestsPerSecond := 1 } } [])
    (fun _ g => (g.session? 0).any fun s =>
      (s.pending.any fun e => (g.waiter? e.ticket).any fun w => w.state = .waiting) ∧
        ¬ ((limitersOf g.settings.validation g.now s).perSecond.refill
          g.settings.validation.rounding g.now).hasPermit)
    (by decide +kernel)
  simp only [Option.any_eq_true, List.any_eq_true, decide_eq_true_eq] at h
  obtain ⟨s, hs, ⟨e, he, w, hw, hwait⟩, hempty⟩ := h
  have hrefused : ¬ s.Admits g.settings.validation g.now (.success e.id (.object [])) :=
    fun ha => hempty ha.perSecond
  obtain ⟨hkept, hpends⟩ :=
    (handed_over ⟨_, [], 0, rfl⟩ hr hs he hw (m := .success e.id (.object [])) rfl rfl).2 hrefused
  exact ⟨ms, g, s, e, w, hr, hs, he, hw, hwait, hkept, hpends⟩

end Gateway

end AgentGateway
