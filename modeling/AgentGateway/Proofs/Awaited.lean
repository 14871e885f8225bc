import AgentGateway.Proofs.Answers
import AgentGateway.Proofs.Posting

namespace AgentGateway

open Function (update)

namespace Board

structure Kept (b : Board) : Prop where
  entry : ∀ p h, b.handle p = some h → b.Waits h.ticket →
    ∃ e, b.Pends h.session e ∧ e.ticket = h.ticket
  ticket_lt : ∀ p h, b.handle p = some h → h.ticket < b.nextTicket
  unique : ∀ r e e', b.Pends r e → b.Pends r e' → e.id = e'.id → e = e'
  unclosed : ∀ r e, b.Pends r e → ¬ b.Closed r

variable {b b' : Board} {r q : SessionRef} {s s' : Session} {e e' : Pending} {t : Ticket}
  {id : RequestId} {state : WaiterState} {ts : List Ticket} {m : Message} {x : Errand}
  {h : Handle} {p : ProcessId} {es : List Errand}

theorem pends_iff (hs : b.line r = some s) : b.Pends r e ↔ e ∈ s.pending :=
  ⟨fun ⟨_, hx, he⟩ => Option.some.inj (hs.symm.trans hx) ▸ he, fun he => ⟨s, hs, he⟩⟩

namespace Kept

theorem closed (hb : b.Kept) (hh : b.handle p = some h) (hc : b.Closed h.session) :
    ¬ b.Waits h.ticket := by
  intro hw
  obtain ⟨e, he, -⟩ := hb.entry p h hh hw
  exact hb.unclosed _ e he hc

theorem drop (hb : b.Kept) (hline : b'.line = b.line) (hnext : b'.nextTicket = b.nextTicket)
    (hhandle : ∀ p h, b'.handle p = some h → b.handle p = some h)
    (hwaits : ∀ t, b'.Waits t → b.Waits t) : b'.Kept := by
  have hpends (r : SessionRef) (e : Pending) : b'.Pends r e ↔ b.Pends r e := by
    rw [Pends, Pends, hline]
  constructor
  case entry =>
    intro p h hh hw
    obtain ⟨e, he, ht⟩ := hb.entry p h (hhandle p h hh) (hwaits _ hw)
    exact ⟨e, (hpends _ e).mpr he, ht⟩
  case ticket_lt => exact fun p h hh => hnext ▸ hb.ticket_lt p h (hhandle p h hh)
  case unique =>
    exact fun r e e' he he' => hb.unique r e e' ((hpends r e).mp he) ((hpends r e').mp he')
  case unclosed =>
    intro r e he hc
    rw [Closed, hline] at hc
    exact hb.unclosed r e ((hpends r e).mp he) hc

theorem take (hb : b.Kept) (hstate : state ≠ .waiting) : (b.take r id state).Kept := by
  constructor
  case entry =>
    intro p h hh hw
    rw [handle_take] at hh
    obtain ⟨e, he, ht⟩ := hb.entry p h hh (waits_take hstate hw)
    refine ⟨e, pends_take.mpr ⟨he, fun hown => ?_⟩, ht⟩
    -- the entry that is taken is this one, and its ticket is settled
    rcases take_cases r id state b with ⟨-, hnone⟩ | ⟨e', s, hs, he', hid, heq⟩
    · exact hnone e (hown.1 ▸ he) hown.2
    · have hsame : e = e' :=
        hb.unique r e e' (hown.1 ▸ he) ((pends_iff hs).mpr he') (hown.2.trans hid.symm)
      obtain ⟨w, hw, hwait⟩ := hw
      rw [heq, waiter_settle, if_pos (by rw [← ht, hsame]), Option.map_eq_some_iff] at hw
      obtain ⟨w', -, rfl⟩ := hw
      exact hstate hwait
  case ticket_lt =>
    intro p h hh
    rw [handle_take] at hh
    rw [nextTicket_take]
    exact hb.ticket_lt p h hh
  case unique =>
    exact fun r e e' he he' => hb.unique r e e' (pends_take.mp he).1 (pends_take.mp he').1
  case unclosed =>
    exact fun r e he hc => hb.unclosed r e (pends_take.mp he).1 (closed_take.mp hc)

theorem resolve (hb : b.Kept) : (b.resolve r m).Kept := by
  unfold Board.resolve
  cases m.id with
  | none => exact hb
  | some id => exact hb.take (by simp)

theorem dropped (hb : b.Kept) :
    Kept { b.dropHandle h with handle := update b.handle p none } := by
  have htake : (b.cancelPending h.session h.id).Kept := hb.take (by simp)
  refine htake.drop rfl rfl (fun q h' hq => ?_) fun t hw => ?_
  · have hq : update b.handle p none q = some h' := hq
    rw [Function.update_apply] at hq
    split at hq
    · cases hq
    · rw [cancelPending, handle_take]
      exact hq
  · obtain ⟨w, hw, hwait⟩ := hw
    have hw : update (b.cancelPending h.session h.id).waiter h.ticket none t = some w := hw
    rw [Function.update_apply] at hw
    split at hw
    · cases hw
    · exact ⟨w, hw, hwait⟩

theorem carried (hb : b.Kept) {line : SessionRef → Option Session}
    (hc : ∀ r, Gateway.CarriedTo (b.line r) (line r)) : Kept { b with line } := by
  constructor
  case entry =>
    intro p h hh hw
    obtain ⟨e, he, ht⟩ := hb.entry p h hh hw
    exact ⟨e, (pends_carried hc).mpr he, ht⟩
  case ticket_lt => exact hb.ticket_lt
  case unique =>
    exact fun r e e' he he' =>
      hb.unique r e e' ((pends_carried hc).mp he) ((pends_carried hc).mp he')
  case unclosed =>
    intro r e he ⟨s', hs', hstat⟩
    have hold := (pends_carried hc).mp he
    obtain ⟨s, hs, -⟩ := id hold
    have hr := hc r
    rw [hs] at hr
    obtain ⟨s₁, hs₁, hcar⟩ := hr
    cases hs₁.symm.trans hs'
    exact hb.unclosed r e hold ⟨s, hs, hcar.closed.mp hstat⟩

theorem enter (hb : b.Kept) {holder : Option ProcessId} (hs : b.line r = some s)
    (hpend : s'.pending = s.pending ++ [e]) (hopen : s'.status ≠ .closed)
    (hfresh : ∀ e' ∈ s.pending, e'.id ≠ e.id) : ((b.issue holder).setLine r s').Kept := by
  have hpends {q : SessionRef} {e' : Pending} :
      ((b.issue holder).setLine r s').Pends q e' ↔ b.Pends q e' ∨ (q = r ∧ e' = e) :=
    pends_asked hs hpend
  constructor
  case entry =>
    intro p h hh hw
    have hlt := hb.ticket_lt p h hh
    have hw : (b.issue holder).Waits h.ticket := hw
    obtain ⟨e', he', ht⟩ :=
      hb.entry p h hh ((waits_issue hw).resolve_right (Nat.ne_of_lt hlt))
    exact ⟨e', hpends.mpr (.inl he'), ht⟩
  case ticket_lt => exact fun p h hh => Nat.lt_succ_of_lt (hb.ticket_lt p h hh)
  case unique =>
    intro q e₁ e₂ he₁ he₂ hid
    rcases hpends.mp he₁ with he₁ | ⟨rfl, rfl⟩ <;> rcases hpends.mp he₂ with he₂ | ⟨hq, rfl⟩
    · exact hb.unique q e₁ e₂ he₁ he₂ hid
    · exact absurd hid (hfresh e₁ ((pends_iff hs).mp (hq ▸ he₁)))
    · exact absurd hid.symm (hfresh e₂ ((pends_iff hs).mp he₂))
    · rfl
  case unclosed =>
    intro q e' he' ⟨s₁, hs₁, hstat⟩
    have hs₁ : ((b.issue holder).setLine r s').line q = some s₁ := hs₁
    rw [line_setLine] at hs₁
    split at hs₁
    · cases hs₁
      exact hopen hstat
    · rename_i hq
      rcases hpends.mp he' with he' | ⟨rfl, -⟩
      · exact hb.unclosed q e' he' ⟨s₁, hs₁, hstat⟩
      · exact hq rfl

theorem assign (hb : b.Kept) (he : b.Pends h.session e) (ht : e.ticket = h.ticket)
    (hlt : h.ticket < b.nextTicket) : Kept { b with handle := update b.handle p (some h) } := by
  have hhandle {q : ProcessId} {h' : Handle} (hq : update b.handle p (some h) q = some h') :
      h' = h ∨ b.handle q = some h' := by
    rw [Function.update_apply] at hq
    split at hq
    · exact .inl (Option.some.inj hq).symm
    · exact .inr hq
  constructor
  case entry =>
    intro q h' hq hw
    rcases hhandle hq with rfl | hq
    · exact ⟨e, he, ht⟩
    · exact hb.entry q h' hq hw
  case ticket_lt =>
    intro q h' hq
    rcases hhandle hq with rfl | hq
    · exact hlt
    · exact hb.ticket_lt q h' hq
  case unique => exact hb.unique
  case unclosed => exact hb.unclosed

theorem asked (hb : b.Kept) {method : String} (hs : b.line r = some s)
    (hreg : s.takeRequestId.2.register ⟨s.takeRequestId.1, method, b.nextTicket⟩ = .ok s') :
    Kept { (b.issue (some p)).setLine r s' with
      handle := update b.handle p (some ⟨r, s.takeRequestId.1, b.nextTicket⟩) } := by
  obtain ⟨hopen, hs'⟩ := Session.register_spec hreg
  have hpend : s'.pending = s.pending ++ [⟨s.takeRequestId.1, method, b.nextTicket⟩] := by
    rw [hs']
    rfl
  have henter : ((b.issue (some p)).setLine r s').Kept :=
    hb.enter hs hpend (by rwa [hs']) fun e' he' => Session.fresh_of_register hreg he'
  exact henter.assign ((pends_asked hs hpend).mpr (.inr ⟨rfl, rfl⟩)) rfl (Nat.lt_succ_self _)

theorem registered (hb : b.Kept) {method : String} (hs : b.line r = some s)
    (hreg : s.register ⟨id, method, b.nextTicket⟩ = .ok s') :
    ((b.issue none).setLine r s').Kept := by
  obtain ⟨hopen, hs'⟩ := Session.register_spec hreg
  exact hb.enter hs (by rw [hs']) (by rwa [hs']) fun e' he' => Session.fresh_of_register hreg he'

theorem close (hb : b.Kept) (hs : b.line r = some s) (hclose : s.close = some (ts, s')) :
    ((b.setLine r s').settleAll ts .cancelled).Kept := by
  obtain ⟨hts, hpend, -⟩ := Session.close_spec hclose
  have hp {q : SessionRef} {e : Pending} :
      ((b.setLine r s').settleAll ts .cancelled).Pends q e ↔ b.Pends q e ∧ q ≠ r :=
    pends_closed hpend
  constructor
  case entry =>
    intro p h hh ⟨w, hw, hwait⟩
    rw [handle_settleAll] at hh
    rw [waiter_settleAll] at hw
    split at hw
    · obtain ⟨w', -, rfl⟩ := Option.map_eq_some_iff.mp hw
      cases hwait
    · rename_i hts'
      obtain ⟨e, he, ht⟩ := hb.entry p h hh ⟨w, hw, hwait⟩
      refine ⟨e, hp.mpr ⟨he, fun hr => hts' ?_⟩, ht⟩
      rw [hts, ← ht]
      exact List.mem_map_of_mem ((pends_iff hs).mp (hr ▸ he))
  case ticket_lt =>
    intro p h hh
    rw [handle_settleAll] at hh
    rw [nextTicket_settleAll]
    exact hb.ticket_lt p h hh
  case unique => exact fun q e e' he he' => hb.unique q e e' (hp.mp he).1 (hp.mp he').1
  case unclosed =>
    intro q e he ⟨s₁, hs₁, hstat⟩
    obtain ⟨he, hq⟩ := hp.mp he
    rw [line_settleAll, line_setLine, if_neg hq] at hs₁
    exact hb.unclosed q e he ⟨s₁, hs₁, hstat⟩

theorem step (hb : b.Kept) (hs : Step b x b') : b'.Kept := by
  cases hs with
  | carried hc => exact hb.carried hc
  | asked _ hl hreg => exact hb.asked hl hreg
  | dropped _ => exact hb.dropped
  | resolved r m => exact hb.resolve
  | closed hl hclose => exact hb.close hl hclose
  | registered hl hreg => exact hb.registered hl hreg
  | withdrawn r id => exact hb.take (by simp)

theorem path (hb : b.Kept) (hp : Path b es b') : b'.Kept := by
  induction hp with
  | nil => exact hb
  | snoc _ hs ih => exact ih.step hs

theorem resolved (hb : b.Kept) (he : b.Pends r e) (hid : m.id = some e.id) :
    (b.resolve r m).waiter e.ticket =
        (b.waiter e.ticket).map (fun w => { w with state := .answered m }) ∧
      ¬ (b.resolve r m).Pends r e := by
  have hresolve : b.resolve r m = b.take r e.id (.answered m) := by simp [Board.resolve, hid]
  rw [hresolve]
  refine ⟨?_, fun h => (pends_take.mp h).2 ⟨rfl, rfl⟩⟩
  rcases take_cases r e.id (.answered m) b with ⟨-, hnone⟩ | ⟨e', s, hs, he', hid', htake⟩
  · exact absurd rfl (hnone e he)
  · obtain rfl : e' = e := hb.unique r e' e ⟨s, hs, he'⟩ he hid'
    rw [htake, waiter_settle, if_pos rfl]
    rfl

end Kept

end Board

variable {g₀ g : Gateway} {ms : List Moment}

theorem Gateway.IsNew.kept (h₀ : g₀.IsNew) : g₀.board.Kept := by
  obtain ⟨settings, tools, epoch, rfl⟩ := h₀
  constructor
  case entry | ticket_lt => exact fun _ _ hh => by cases hh
  case unique =>
    rintro r e e' ⟨s, hs, -⟩
    cases hs
  case unclosed =>
    rintro r e ⟨s, hs, -⟩
    cases hs

theorem Run.kept (h₀ : g₀.IsNew) (hr : Run g₀ ms g) : g.board.Kept := by
  obtain ⟨es, hp, -⟩ := hr.boards h₀.numbered
  exact h₀.kept.path hp

end AgentGateway
