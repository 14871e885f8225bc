import AgentGateway.Proofs.Kindred

namespace AgentGateway

namespace Process

def result? (x : Process) : Option (Except CallError Message) :=
  x.call?.bind fun c =>
    match c.stage with
    | .done result => some result
    | _ => none

end Process

namespace Moment

/-- That the request of a process gets a message as its result, for which it has held a handle. -/
def Returns (p : ProcessId) (h : Handle) (msg : Message) (m : Moment) : Prop :=
  m.before.held? p = some h ∧ (m.after.process? p).bind Process.result? = some (.ok msg)

end Moment

def Call.Sent (ms : List Moment) (p : ProcessId) (c : Call) : Prop :=
  match c.stage with
  | .sending h d => d.message = .request h.id c.method c.params
  | .waiting h _ => ∃ m ∈ ms, m.sent p h.session = [.request h.id c.method c.params]
  | _ => True

theorem Call.Sent.mono {ms ns : List Moment} {p : ProcessId} {c : Call} (h : c.Sent ms p) :
    c.Sent (ms ++ ns) p := by
  unfold Call.Sent at h ⊢
  split at h
  · exact h
  · obtain ⟨m, hm, hs⟩ := h
    exact ⟨m, by simp [hm], hs⟩
  · trivial

namespace Gateway

variable {g g' g₁ : Gateway} {p q : ProcessId} {x y : Process} {c c' : Call} {h : Handle}
  {msg : Message} {a : Act}

def Answered (t : Ticket) (msg : Message) (g : Gateway) : Prop :=
  ∃ w, g.waiter? t = some w ∧ w.state = .answered msg

theorem stage_follow {w : PageWalk} {result : Except CallError Message}
    (hc : (w.follow result).call = some c) : c.stage = .start := by
  have hnext (w : PageWalk) (m : Message) : (w.endWith m).call = none := rfl
  unfold PageWalk.follow at hc
  split at hc
  · cases hc
  · split at hc
    · cases hc
    · split at hc
      · unfold PageWalk.skip at hc
        dsimp only at hc
        split at hc <;> cases hc
        rfl
      · unfold PageWalk.skip at hc
        dsimp only at hc
        split at hc <;> cases hc
        rfl
      · unfold PageWalk.turn at hc
        split at hc <;> cases hc
        rfl

theorem call_of_control (hstep : g.control? p = some g') (hy : g'.process? p = some y)
    (hc : y.call? = some c') : c'.stage = .start ∨ ∃ x c g₁, g.process? p = some x ∧
      x.call? = some c ∧ g.call? p c = some (c', g₁) ∧ g'.desk = g₁.desk := by
  have hset {g₁ : Gateway} {z : Process} (hy : (g₁.setProcess p z).process? p = some y) :
      z = y := by
    rw [process?_setProcess, if_pos rfl, Option.map_eq_some_iff] at hy
    obtain ⟨-, -, hy⟩ := hy
    exact hy
  obtain ⟨x, hx, hstep⟩ := Option.bind_eq_some_iff.mp hstep
  cases x with
  | call c =>
      obtain ⟨c₁, g₁, hcall, rfl⟩ := of_staged hstep
      obtain rfl := hset hy
      obtain rfl : c₁ = c' := Option.some.inj hc
      exact .inr ⟨_, c, g₁, hx, rfl, hcall, desk_setProcess⟩
  | pages w =>
      obtain ⟨w₁, g₁, hwalk, rfl⟩ := of_staged hstep
      obtain rfl := hset hy
      have hc : w₁.call = some c' := hc
      unfold walk? at hwalk
      split at hwalk
      · cases hwalk
      · rename_i c hcw
        split at hwalk
        · cases hwalk
          cases hc
        · split at hwalk
          · cases hwalk
            exact .inl (stage_follow hc)
          · simp only [Option.map_eq_some_iff] at hwalk
            obtain ⟨⟨c₁, g₂⟩, hcall, heq⟩ := hwalk
            cases heq
            obtain rfl := Option.some.inj hc
            exact .inr ⟨_, c, g₂, hx, hcw, hcall, desk_setProcess⟩
  | message | answer | sessionLoop | subscription | notice | sweeper =>
      obtain ⟨z, g₁, -, rfl⟩ := of_staged hstep
      obtain rfl := hset hy
      cases hc

theorem answered_of_call? (hcall : g.call? p c = some (c', g₁)) (hc : c.handle? = some h)
    (hdone : c'.stage = .done (.ok msg)) :
    g.Answered h.ticket msg ∧ ∃ deadline, c.stage = .waiting h deadline := by
  unfold call? at hcall
  cases hs : c.stage with
  | start | done result => simp [Call.handle?, hs] at hc
  | sending t d =>
      simp only [hs, Option.map_eq_some_iff, sendCall] at hcall
      obtain ⟨⟨stage, g₂⟩, hsend, heq⟩ := hcall
      cases heq
      split at hsend
      · cases hsend
        cases hdone
      · split at hsend <;> cases hsend
        cases hdone
      · cases hsend
        cases hdone
  | waiting t deadline =>
      obtain rfl : t = h := by simpa [Call.handle?, hs] using hc
      simp only [hs, Option.map_eq_some_iff, awaitCall] at hcall
      obtain ⟨⟨stage, g₂⟩, hwait, heq⟩ := hcall
      cases heq
      split at hwait
      · rename_i m hans
        cases hwait
        cases hdone
        obtain ⟨w, hw, hstate⟩ := Option.map_eq_some_iff.mp hans
        exact ⟨⟨w, hw, hstate⟩, deadline, rfl⟩
      · split at hwait <;> cases hwait
        cases hdone
      · cases hwait
        cases hdone

theorem answered_of_returns (hn : g.Numbered) (hstep : g.perform a = some g')
    (hr : Moment.Returns p h msg ⟨g, a, g'⟩) : g.Answered h.ticket msg ∧
      ∃ x c deadline, g.process? p = some x ∧ x.call? = some c ∧
        c.stage = .waiting h deadline := by
  obtain ⟨hheld, hres⟩ := hr
  obtain ⟨x, hx, hxh⟩ := Option.bind_eq_some_iff.mp hheld
  obtain ⟨c, hxc, hch⟩ := Option.bind_eq_some_iff.mp hxh
  obtain ⟨y, hy, hyr⟩ := Option.bind_eq_some_iff.mp hres
  obtain ⟨c', hyc, hdone⟩ := Option.bind_eq_some_iff.mp hyr
  have hdone : c'.stage = .done (.ok msg) := by
    split at hdone <;> cases hdone
    assumption
  by_cases ha : a = .control p
  · subst ha
    rcases call_of_control hstep hy hyc with hstart | ⟨x₁, c₁, g₁, hx₁, hxc₁, hcall, -⟩
    · cases hdone.symm.trans hstart
    · cases hx.symm.trans hx₁
      cases hxc.symm.trans hxc₁
      obtain ⟨hans, deadline, hs⟩ := answered_of_call? hcall hch hdone
      exact ⟨hans, x, c, deadline, hx, hxc, hs⟩
  · rcases kindred_perform hn hstep ha hy with ⟨x₁, hx₁, hk⟩ | ⟨hlt, -⟩
    · cases hx.symm.trans hx₁
      have hsame := hk.call?
      rw [hxc, hyc] at hsame
      cases hsame
      simp [Call.handle?, hdone] at hch
    · simp [hn p hlt] at hx

theorem sent_of_call? {ms : List Moment} (hc : c.Sent ms p) (hcall : g.call? p c = some (c', g₁))
    (hdesk : g'.desk = g₁.desk) : c'.Sent (ms ++ [⟨g, .control p, g'⟩]) p := by
  unfold call? at hcall
  unfold Call.Sent at hc
  cases hs : c.stage with
  | start =>
      simp only [hs] at hcall
      cases hcall
      unfold beginCall
      split
      · trivial
      · dsimp only
        split
        · trivial
        · rfl
  | sending t d =>
      simp only [hs] at hc
      simp only [hs, Option.map_eq_some_iff, sendCall] at hcall
      obtain ⟨⟨stage, g₂⟩, hsend, heq⟩ := hcall
      cases heq
      have hdel := delivered_deliver (g := g) (p := p) (r := t.session) d
      generalize g.deliver p t.session d = z at hsend hdel
      obtain ⟨state, g₃⟩ := z
      cases hdel with
      | sent hbox =>
          cases hsend
          refine ⟨⟨g, .control p, g'⟩, by simp, ?_⟩
          have hg : g₃.outbox t.session = g'.outbox t.session := by
            refine (outbox_of_desk (hdesk.trans ?_)).symm
            cases c.timeout with
            | none => rfl
            | some d => exact desk_setTimer
          simp [Moment.sent, ← hg, hbox, hc]
      | pending hbox hmsg =>
          dsimp only at hsend
          split at hsend <;> cases hsend
          exact hmsg.trans hc
      | failed hclosed =>
          cases hsend
          trivial
  | waiting t deadline =>
      simp only [hs, Option.map_eq_some_iff, awaitCall] at hcall
      obtain ⟨⟨stage, g₂⟩, hwait, heq⟩ := hcall
      cases heq
      split at hwait
      · cases hwait
        trivial
      · split at hwait <;> cases hwait
        trivial
      · cases hwait
        trivial
  | done result => simp [hs] at hcall

end Gateway

open Gateway in
theorem Run.sent {g₀ g : Gateway} {ms : List Moment} (h₀ : g₀.IsNew) (h : Run g₀ ms g) :
    ∀ p x c, g.process? p = some x → x.call? = some c → c.Sent ms p := by
  induction h with
  | nil =>
      intro p x c hx
      obtain ⟨settings, tools, epoch, rfl⟩ := h₀
      cases hx
  | @snoc ms g a g' hrun hstep ih =>
      intro p y c' hy hc
      by_cases ha : a = .control p
      · subst ha
        rcases call_of_control hstep hy hc with hstart | ⟨x, c, g₁, hx, hxc, hcall, hdesk⟩
        · simp [Call.Sent, hstart]
        · exact sent_of_call? (ih p x c hx hxc) hcall hdesk
      · rcases kindred_perform (hrun.numbered h₀.numbered) hstep ha hy with ⟨x, hx, hk⟩ | ⟨-, hnone⟩
        · exact (ih p x c' hx (hk.call?.symm.trans hc)).mono
        · have hnone : c'.handle? = none := by rwa [Process.handle?, hc] at hnone
          unfold Call.Sent
          split
          · rename_i hs
            simp [Call.handle?, hs] at hnone
          · rename_i hs
            simp [Call.handle?, hs] at hnone
          · trivial

end AgentGateway
