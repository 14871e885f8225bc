import AgentGateway.Proofs.Release
/-!
From when the time of a request counts. The clock starts when the message has been put into the
session's queue: the wait for room in the queue is neither limited nor counted, so that a request
may be unanswered long after the time it was given has passed.
-/

namespace AgentGateway

/-- That a request has been sent before its process waits for the response, and for how long it
waits from then on. -/
def Call.Timed (ms : List Moment) (p : ProcessId) (c : Call) : Prop :=
  ∀ h deadline, c.stage = .waiting h deadline → ∃ m ∈ ms,
    m.sent p h.session = [.request h.id c.method c.params] ∧
      deadline = c.timeout.map (m.before.now + ·)

theorem Call.Timed.mono {ms ns : List Moment} {p : ProcessId} {c : Call} (h : c.Timed ms p) :
    c.Timed (ms ++ ns) p := by
  intro k deadline hs
  obtain ⟨m, hm, hsent⟩ := h k deadline hs
  exact ⟨m, List.mem_append_left ns hm, hsent⟩

def Gateway.IsStarting (p : ProcessId) (g : Gateway) : Prop :=
  ∃ c, (g.process? p).bind Process.call? = some c ∧ c.stage = .start

/-- That a request is issued, which its process is about to begin. -/
def Moment.Issues (p : ProcessId) (m : Moment) : Prop :=
  m.after.IsStarting p ∧ ¬ m.before.IsStarting p

namespace Gateway

variable {g g' g₁ : Gateway} {p : ProcessId} {r : SessionRef} {c c' : Call} {d : Delivery}

theorem now_deliver : (g.deliver p r d).2.now = g.now := by
  unfold deliver
  split
  · rfl
  · dsimp only
    split
    · split
      · split <;> rfl
      · rfl
    · split <;> rfl

theorem timed_of_call? {ms : List Moment} (hc : c.Sent ms p) (hcall : g.call? p c = some (c', g₁))
    (hdesk : g'.desk = g₁.desk) : c'.Timed [⟨g, .control p, g'⟩] p := by
  intro h deadline hstage
  cases hs : c.stage with
  | start =>
      simp only [call?, hs] at hcall
      cases hcall
      unfold beginCall at hstage
      split at hstage
      · cases hstage
      · dsimp only at hstage
        split at hstage <;> cases hstage
  | sending k d =>
      -- what is about to be sent is known without the moments before
      have hc : c.Sent [] p := by
        rw [Call.Sent, hs] at hc ⊢
        exact hc
      have hsent := sent_of_call? hc hcall hdesk
      rw [Call.Sent, hstage] at hsent
      obtain ⟨m, hm, hsent⟩ := hsent
      refine ⟨m, hm, hsent, ?_⟩
      obtain rfl := List.mem_singleton.mp hm
      simp only [call?, hs, Option.map_eq_some_iff, sendCall] at hcall
      obtain ⟨⟨stage, g₂⟩, hsend, heq⟩ := hcall
      cases heq
      have hnow := now_deliver (g := g) (p := p) (r := k.session) (d := d)
      split at hsend
      · rename_i g₃ hdel
        rw [hdel] at hnow
        cases hsend
        cases hstage
        rw [hnow]
      · split at hsend <;> cases hsend
        cases hstage
      · cases hsend
        cases hstage
  | waiting k deadline =>
      simp only [call?, hs, Option.map_eq_some_iff, awaitCall] at hcall
      obtain ⟨⟨stage, g₂⟩, hwait, heq⟩ := hcall
      cases heq
      split at hwait
      · cases hwait
        cases hstage
      · split at hwait <;> cases hwait
        cases hstage
      · cases hwait
        cases hstage
  | done result => simp [call?, hs] at hcall

end Gateway

section Run

open Gateway

variable {g₀ g : Gateway} {before after : List Moment} {b : Moment} {p : ProcessId} {x : Process}
  {c : Call} {T : Nanos}

theorem Run.timed (h₀ : g₀.IsNew) (hr : Run g₀ (before ++ b :: after) g) (hb : b.Issues p) :
    ∀ x c, g.process? p = some x → x.call? = some c → c.Timed after p := by
  obtain ⟨hrun, hstep, hrest⟩ := hr.split rfl
  have hbegun := hrun.snoc hstep
  clear hr
  induction hrest with
  | nil =>
      intro x c hx hc h deadline hstage
      obtain ⟨⟨c', hc', hstart⟩, -⟩ := hb
      rw [hx, Option.bind_some, hc] at hc'
      cases hc'
      cases hstart.symm.trans hstage
  | @snoc ms g a g' hmid hstep' ih =>
      intro y c' hy hc'
      have hrun' := hbegun.append hmid
      by_cases ha : a = .control p
      · subst ha
        rcases call_of_control hstep' hy hc' with hstart | ⟨x, c, g₁, hx, hc, hcall, hdesk⟩
        · intro h deadline hstage
          cases hstart.symm.trans hstage
        · intro h deadline hstage
          obtain ⟨m, hm, hsent⟩ :=
            timed_of_call? (hrun'.sent h₀ p x c hx hc) hcall hdesk h deadline hstage
          exact ⟨m, List.mem_append_right ms hm, hsent⟩
      · rcases kindred_perform (hrun'.numbered h₀.numbered) hstep' ha hy with ⟨x, hx, hk⟩ | ⟨-, hnone⟩
        · exact (ih x c' hx (hk.call?.symm.trans hc')).mono
        · intro h deadline hstage
          rw [Process.handle?, hc', Option.bind_some, Call.handle?, hstage] at hnone
          cases hnone

/-- A request that can go no further is unanswered after the time that it was given exactly if it
still waits for room in the queue, or has waited for so long that it was sent less than this time
ago. -/
theorem outlives_iff (h₀ : g₀.IsNew) (hr : Run g₀ (before ++ b :: after) g) (hb : b.Issues p)
    (hx : g.process? p = some x) (hc : x.call? = some c) (htimeout : c.timeout = some T)
    (hlate : b.before.now + T ≤ g.now) (hidle : g.control? p = none) :
    (∀ result, c.stage ≠ .done result) ↔
      (∃ h m s, c.stage = .sending h (.waiting m) ∧ g.session? h.session = some s ∧
        s.outbound.receiving = true ∧ s.outbound.hasRoom = false ∧ p ∉ s.outbound.granted) ∨
      ∃ h deadline w, c.stage = .waiting h deadline ∧ g.waiter? h.ticket = some w ∧
        w.state = .waiting ∧ ∃ m ∈ after, m.sent p h.session = [.request h.id c.method c.params] ∧
          b.before.now < m.before.now ∧ g.now < m.before.now + T := by
  constructor
  · intro hunresolved
    rcases stalled_of_call? (call?_of_idle hx hc hidle) with ⟨result, hdone⟩ |
      ⟨h, m, s, hstage, hs, hfull⟩ | ⟨h, deadline, w, hstage, hw, hstate, hleft⟩
    · exact absurd hdone (hunresolved result)
    · exact .inl ⟨h, m, s, hstage, hs, ((hr.backed h₀) _ s hs).full_iff.mp hfull⟩
    · obtain ⟨m, hm, hsent, hdeadline⟩ := hr.timed h₀ hb x c hx hc h deadline hstage
      rw [htimeout] at hdeadline
      have hlt : g.now < m.before.now + T := hleft _ hdeadline
      have hlater : b.before.now < m.before.now :=
        Nat.lt_of_add_lt_add_right (Nat.lt_of_le_of_lt hlate hlt)
      exact .inr ⟨h, deadline, w, hstage, hw, hstate, m, hm, hsent, hlater, hlt⟩
  · rintro (⟨h, m, s, hstage, -⟩ | ⟨h, deadline, w, hstage, -⟩) result hdone
    · cases hstage.symm.trans hdone
    · cases hstage.symm.trans hdone

end Run

/-- Two requests to a peer that takes nothing, with room for one message, and the time of both
passing by. -/
def Act.overdue : List Act :=
  [.openSession ["a"] "owner" .client {}, .request "a" "ping" none (some 5), .control 0,
    .control 0, .request "a" "ping" none (some 5), .control 1, .control 1, .tick 5]

theorem outlives_iff_full : ∃ (g : Gateway) (before after : List Moment) (b : Moment) (x : Process)
    (c : Call), Run (Gateway.new { outboundBuffer := 1 } []) (before ++ b :: after) g ∧
    b.Issues 1 ∧ g.process? 1 = some x ∧ x.call? = some c ∧ c.timeout = some 5 ∧
    b.before.now + 5 ≤ g.now ∧ g.control? 1 = none ∧
    (∀ result, c.stage ≠ .done result) ∧ ∃ h m s, c.stage = .sending h (.waiting m) ∧
      g.session? h.session = some s ∧ s.outbound.hasRoom = false := by
  obtain ⟨ms, g, hr, -, h⟩ := Run.exists_of_replay Act.overdue
    (Gateway.new { outboundBuffer := 1 } [])
    (fun ms g => (ms[4]?.any fun b =>
        (((b.after.process? 1).bind Process.call?).any fun c => c.stage matches .start) ∧
        (b.before.process? 1).isNone ∧ b.before.now + 5 ≤ g.now) ∧
      (((g.process? 1).bind Process.call?).any fun c =>
        c.timeout = some 5 ∧ c.stage matches .sending _ _) ∧
      (g.control? 1).isNone)
    (by decide +kernel)
  obtain ⟨hb, hc, hidle⟩ := of_decide_eq_true h
  obtain ⟨b, hb, hbegins⟩ := (Option.any_eq_true ..).mp hb
  obtain ⟨hstart, hnone, hlate⟩ := of_decide_eq_true hbegins
  obtain ⟨c, hc, hstage⟩ := (Option.any_eq_true ..).mp hc
  obtain ⟨htimeout, hsending⟩ := of_decide_eq_true hstage
  obtain ⟨x, hx, hc⟩ := Option.bind_eq_some_iff.mp hc
  have hidle : g.control? 1 = none := Option.isNone_iff_eq_none.mp hidle
  have hissues : b.Issues 1 := by
    refine ⟨?_, ?_⟩
    · obtain ⟨c, hc, hstage⟩ := (Option.any_eq_true ..).mp hstart
      refine ⟨c, hc, ?_⟩
      split at hstage
      · assumption
      · cases hstage
    · rintro ⟨c, hc, -⟩
      rw [Option.isNone_iff_eq_none.mp hnone] at hc
      cases hc
  have hunresolved : ∀ result, c.stage ≠ .done result := by
    intro result hdone
    rw [hdone] at hsending
    cases hsending
  rw [← take_append_cons_drop hb] at hr
  have hblocked := (outlives_iff ⟨_, [], 0, rfl⟩ hr hissues hx hc htimeout hlate hidle).mp hunresolved
  rcases hblocked with ⟨h, m, s, hs, hsession, -, hfull, -⟩ | ⟨h, deadline, w, hwaits, -⟩
  · exact ⟨g, _, _, b, x, c, hr, hissues, hx, hc, htimeout, hlate, hidle, hunresolved, h, m, s, hs,
      hsession, hfull⟩
  · rw [hwaits] at hsending
    cases hsending

end AgentGateway
