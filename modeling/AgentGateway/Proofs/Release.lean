import AgentGateway.Proofs.Awaited
import AgentGateway.Proofs.Requests
/-!
What closing a session does for the processes that have a request on it. Whoever waits for a
response learns that none will come; whoever still waits for room in the session's queue does not,
and has its request on the closed session for as long as the queue is full.
-/

namespace AgentGateway

namespace Board

def Backed (b : Board) : Prop := ∀ r s, b.line r = some s → s.outbound.Backed

variable {b b' : Board} {x : Errand} {es : List Errand}

theorem Backed.step (h : b.Backed) (hs : Step b x b') : b'.Backed := by
  intro r s' hs'
  rcases hs.line_cases hs' with ⟨s, hl, hage⟩ | ⟨-, -, hnew⟩
  · exact hage.backed (h r s hl)
  · exact hnew

theorem Backed.path (h : b.Backed) (hp : Path b es b') : b'.Backed := by
  induction hp with
  | nil => exact h
  | snoc _ hs ih => exact ih.step hs

end Board

variable {g₀ g : Gateway} {ms : List Moment} {p : ProcessId} {r : SessionRef} {s : Session}
  {x : Process} {c : Call} {h : Handle}

theorem Gateway.IsNew.backed (h₀ : g₀.IsNew) : g₀.board.Backed := by
  obtain ⟨settings, tools, epoch, rfl⟩ := h₀
  intro r s hs
  cases hs

theorem Run.backed (h₀ : g₀.IsNew) (hr : Run g₀ ms g) : g.board.Backed := by
  obtain ⟨es, hp, -⟩ := hr.boards h₀.numbered
  exact h₀.backed.path hp

namespace Gateway

theorem call?_of_idle (hx : g.process? p = some x) (hc : x.call? = some c)
    (hidle : g.control? p = none) : g.call? p c = none := by
  cases x with
  | call c' =>
      obtain rfl : c' = c := Option.some.inj hc
      cases hcall : g.call? p c' with
      | none => rfl
      | some y => simp [control?, hx, hcall] at hidle
  | pages w =>
      have hc : w.call = some c := hc
      have hwalk : g.walk? p w = none := by
        cases hwalk : g.walk? p w with
        | none => rfl
        | some y => simp [control?, hx, hwalk] at hidle
      rw [walk?, hc] at hwalk
      dsimp only at hwalk
      split at hwalk
      · cases hwalk
      · split at hwalk
        · cases hwalk
        · exact Option.map_eq_none_iff.mp hwalk
  | message | answer | sessionLoop | subscription | notice | sweeper => cases hc

theorem full_of_deliver {g' : Gateway} {d : Delivery} (hs : g.session? r = some s)
    (h : g.deliver p r d = (.pending d, g')) :
    ∃ m, d = .waiting m ∧ (s.outbound.offerFor p m).1 = .full := by
  unfold deliver at h
  rw [hs] at h
  cases d with
  | fresh m =>
      dsimp only at h
      split at h
      · split at h <;> cases h
      · cases h
  | waiting m =>
      dsimp only at h
      cases ho : s.outbound.offerFor p m with
      | mk o outbound =>
          rw [ho] at h
          cases o with
          | full => exact ⟨m, rfl, by rw [ho]⟩
          | sent | disconnected => cases h

theorem stalled_of_call? (hidle : g.call? p c = none) : (∃ result, c.stage = .done result) ∨
    (∃ h m s, c.stage = .sending h (.waiting m) ∧ g.session? h.session = some s ∧
      (s.outbound.offerFor p m).1 = .full) ∨
    ∃ h deadline w, c.stage = .waiting h deadline ∧ g.waiter? h.ticket = some w ∧
      w.state = .waiting ∧ ∀ t ∈ deadline, g.now < t := by
  unfold call? at hidle
  cases hstage : c.stage with
  | start => simp [hstage] at hidle
  | done result => exact .inl ⟨result, rfl⟩
  | sending h d =>
      have hsend : g.sendCall p c h d = none := by simpa [hstage] using hidle
      unfold sendCall at hsend
      split at hsend
      · cases hsend
      · rename_i d' g' hdel
        split at hsend
        · rename_i hsame
          rw [hsame] at hdel
          cases hs : g.session? h.session with
          | none => simp [deliver, hs] at hdel
          | some s =>
              obtain ⟨m, rfl, hfull⟩ := full_of_deliver hs hdel
              exact .inr (.inl ⟨h, m, s, rfl, hs, hfull⟩)
        · cases hsend
      · cases hsend
  | waiting h deadline =>
      have hawait : g.awaitCall p c h deadline = none := by simpa [hstage] using hidle
      unfold awaitCall at hawait
      split at hawait
      · cases hawait
      · rename_i hw
        split at hawait
        · cases hawait
        · rename_i hleft
          obtain ⟨w, hw, hstate⟩ := Option.map_eq_some_iff.mp hw
          refine .inr (.inr ⟨h, deadline, w, rfl, hw, hstate, fun t ht => ?_⟩)
          obtain rfl : deadline = some t := ht
          simpa using hleft
      · cases hawait

theorem blocked_of_call? (hh : c.handle? = some h) (hs : g.session? h.session = some s)
    (hidle : g.call? p c = none) :
    (∃ m, c.stage = .sending h (.waiting m) ∧ (s.outbound.offerFor p m).1 = .full) ∨
      ∃ w, g.waiter? h.ticket = some w ∧ w.state = .waiting := by
  rcases stalled_of_call? hidle with ⟨result, hstage⟩ | ⟨k, m, t, hstage, ht, hfull⟩ |
    ⟨k, deadline, w, hstage, hw, hstate, -⟩
  · simp [Call.handle?, hstage] at hh
  · obtain rfl : k = h := by simpa [Call.handle?, hstage] using hh
    cases hs.symm.trans ht
    exact .inl ⟨m, hstage, hfull⟩
  · obtain rfl : k = h := by simpa [Call.handle?, hstage] using hh
    exact .inr ⟨w, hw, hstate⟩

end Gateway

/-- A process that can go no further has a request left on a closed session exactly if it is still
about to send it: the session's queue is full, and none of its room is kept for the process. -/
theorem unreleased_iff (h₀ : g₀.IsNew) (hr : Run g₀ ms g) (hs : g.session? r = some s)
    (hclosed : s.status = .closed) (hx : g.process? p = some x) (hidle : g.control? p = none) :
    (∃ h, x.handle? = some h ∧ h.session = r) ↔
      ∃ c h m, x.call? = some c ∧ c.stage = .sending h (.waiting m) ∧ h.session = r ∧
        s.outbound.receiving = true ∧ s.outbound.hasRoom = false ∧ p ∉ s.outbound.granted := by
  constructor
  · rintro ⟨h, hh, rfl⟩
    have hheld : g.board.handle p = some h := (Gateway.held?_eq hx).trans hh
    obtain ⟨c, hc, hch⟩ := Option.bind_eq_some_iff.mp hh
    -- of the two places where a request stops, closing has cleared the second
    rcases Gateway.blocked_of_call? hch hs (Gateway.call?_of_idle hx hc hidle) with
      ⟨m, hstage, hfull⟩ | hwaits
    · exact ⟨c, h, m, hc, hstage, rfl, ((hr.backed h₀) _ s hs).full_iff.mp hfull⟩
    · exact absurd hwaits ((hr.kept h₀).closed hheld ⟨s, hs, hclosed⟩)
  · rintro ⟨c, h, m, hc, hstage, hsession, -⟩
    exact ⟨h, by simp [Process.handle?, hc, Call.handle?, hstage], hsession⟩

theorem unreleased_full : ∃ g ms s h, Run (Gateway.new { outboundBuffer := 1 } []) ms g ∧
    g.session? 0 = some s ∧ s.status = .closed ∧ g.control? 0 = none ∧ g.control? 1 = none ∧
      g.held? 0 = none ∧ g.held? 1 = some h ∧ h.session = 0 ∧ s.outbound.hasRoom = false := by
  obtain ⟨ms, g, hr, -, h⟩ := Run.exists_of_replay
    [.openSession ["a"] "owner" .client {}, .request "a" "ping" none none, .control 0, .control 0,
      .request "a" "ping" none none, .control 1, .control 1, .closeSession "a" .explicit,
      .control 0]
    (Gateway.new { outboundBuffer := 1 } [])
    (fun _ g => (g.session? 0).any (fun s => s.status = .closed) ∧ (g.control? 0).isNone ∧
      (g.control? 1).isNone ∧ (g.held? 0).isNone ∧ (g.held? 1).any (fun h => h.session = 0))
    (by decide +kernel)
  simp only [Option.any_eq_true, decide_eq_true_eq, Option.isNone_iff_eq_none] at h
  obtain ⟨⟨s, hs, hclosed⟩, hidle₀, hidle₁, hnone, k, hk, hsession⟩ := h
  obtain ⟨x, hx, hxk⟩ := Option.bind_eq_some_iff.mp hk
  obtain ⟨c, k', m, -, -, -, -, hfull, -⟩ :=
    (unreleased_iff ⟨_, [], 0, rfl⟩ hr hs hclosed hx hidle₁).mp ⟨k, hxk, hsession⟩
  exact ⟨g, ms, s, k, hr, hs, hclosed, hidle₀, hidle₁, hnone, hk, hsession, hfull⟩

end AgentGateway
