import AgentGateway.Proofs.Awaited
import AgentGateway.Proofs.Lending

namespace AgentGateway

open Function (update)

namespace Board

structure Ticketed (b : Board) : Prop where
  waits : ∀ r e, b.Pends r e → b.Waits e.ticket
  apart : ∀ r q e e', b.Pends r e → b.Pends q e' → e.ticket = e'.ticket → r = q ∧ e.id = e'.id
  issued : ∀ p h, b.handle p = some h → b.Issued h.session h.id

variable {b b' : Board} {r : SessionRef} {s s' : Session} {e : Pending} {t : Ticket}
  {id : RequestId} {state : WaiterState} {ts : List Ticket} {m : Message} {x : Errand}
  {h : Handle} {p : ProcessId} {es : List Errand}

namespace Ticketed

theorem shrink (hb : b.Ticketed) (hage : b.Ages b') (hpend : ∀ r e, b'.Pends r e → b.Pends r e)
    (hwait : ∀ r e, b'.Pends r e → b'.waiter e.ticket = b.waiter e.ticket)
    (hhandle : ∀ p h, b'.handle p = some h → b.handle p = some h) : b'.Ticketed where
  waits r e he := by
    obtain ⟨w, hw, hstate⟩ := hb.waits r e (hpend r e he)
    exact ⟨w, (hwait r e he).trans hw, hstate⟩
  apart r q e e' he he' := hb.apart r q e e' (hpend r e he) (hpend q e' he')
  issued p h hp := (hb.issued p h (hhandle p h hp)).mono hage

theorem waiter_take_eq (hb : b.Ticketed) {q : SessionRef} (he : b.Pends q e)
    (hne : ¬ (q = r ∧ e.id = id)) : (b.take r id state).waiter e.ticket = b.waiter e.ticket := by
  rcases waiter_take b r id state e.ticket with hsame | ⟨e', he', hid, ht, -⟩
  · exact hsame
  · obtain ⟨hr, hids⟩ := hb.apart r q e' e he' he ht
    exact (hne ⟨hr.symm, hids.symm.trans hid⟩).elim

theorem take (hb : b.Ticketed) : (b.take r id state).Ticketed := by
  refine hb.shrink ages_take (fun q e he => (pends_take.mp he).1) (fun q e he => ?_)
    fun p h hp => ?_
  · obtain ⟨he, hne⟩ := pends_take.mp he
    exact hb.waiter_take_eq he hne
  · rwa [handle_take] at hp

theorem dropped (hb : b.Ticketed) (hl : b.Lent) (hp : b.handle p = some h) :
    Ticketed { b.dropHandle h with handle := update b.handle p none } := by
  refine hb.shrink (Step.dropped hp).ages (fun q e he => (pends_dropHandle.mp he).1)
    (fun q e he => ?_) fun q k hq => ?_
  · obtain ⟨he, hne⟩ := pends_dropHandle.mp he
    have htick : e.ticket ≠ h.ticket := fun heq => hne (hl.own p h q e hp he heq)
    change update (b.cancelPending h.session h.id).waiter h.ticket none e.ticket = _
    rw [Function.update_of_ne htick]
    exact hb.waiter_take_eq he hne
  · have hq : update b.handle p none q = some k := hq
    rw [Function.update_apply] at hq
    split at hq
    · cases hq
    · exact hq

theorem close (hb : b.Ticketed) (hs : b.line r = some s) (hclose : s.close = some (ts, s')) :
    ((b.setLine r s').settleAll ts .cancelled).Ticketed := by
  have hage := (Step.closed hs hclose).ages
  obtain ⟨hts, hpend, -⟩ := Session.close_spec hclose
  refine hb.shrink hage (fun q e he => ((pends_closed hpend).mp he).1) (fun q e he => ?_)
    fun p h hp => ?_
  · obtain ⟨he, hq⟩ := (pends_closed hpend).mp he
    rw [waiter_settleAll, if_neg]
    · rfl
    · rw [hts]
      intro hmem
      obtain ⟨e', he', ht⟩ := List.mem_map.mp hmem
      exact hq (hb.apart r q e' e ⟨s, hs, he'⟩ he ht).1.symm
  · rwa [handle_settleAll] at hp

theorem enter (hb : b.Ticketed) (hl : b.Lent) {holder : Option ProcessId} (hs : b.line r = some s)
    (hpend : s'.pending = s.pending ++ [e]) (ht : e.ticket = b.nextTicket) (hage : s.Ages s') :
    ((b.issue holder).setLine r s').Ticketed := by
  have hpends {q : SessionRef} {e' : Pending} :
      ((b.issue holder).setLine r s').Pends q e' ↔ b.Pends q e' ∨ (q = r ∧ e' = e) :=
    pends_asked hs hpend
  have hold {q : SessionRef} {e' : Pending} (he' : b.Pends q e') : e'.ticket ≠ e.ticket :=
    fun heq => Nat.lt_irrefl _ (ht ▸ heq ▸ hl.entry_lt q e' he')
  constructor
  case waits =>
    intro q e' he'
    have hwaiter : ((b.issue holder).setLine r s').waiter e'.ticket =
        (b.waiter e'.ticket).or (if e'.ticket = b.nextTicket then some { holder } else none) := rfl
    rcases hpends.mp he' with he' | ⟨rfl, rfl⟩
    · obtain ⟨w, hw, hwait⟩ := hb.waits q e' he'
      exact ⟨w, by rw [hwaiter, hw, Option.some_or], hwait⟩
    · have hnone : b.waiter e'.ticket = none := by
        refine Option.eq_none_iff_forall_ne_some.mpr fun w hw => ?_
        exact Nat.lt_irrefl _ (ht ▸ hl.waiter_lt _ w hw)
      exact ⟨{ holder }, by rw [hwaiter, hnone, Option.none_or, if_pos ht], rfl⟩
  case apart =>
    intro q q' e₁ e₂ he₁ he₂ heq
    rcases hpends.mp he₁ with h₁ | ⟨rfl, rfl⟩ <;> rcases hpends.mp he₂ with h₂ | ⟨rfl, rfl⟩
    · exact hb.apart q q' e₁ e₂ h₁ h₂ heq
    · exact (hold h₁ heq).elim
    · exact (hold h₂ heq.symm).elim
    · exact ⟨rfl, rfl⟩
  case issued =>
    exact fun p h hp => (hb.issued p h hp).mono (ages_setLine (b := b.issue holder) hs hage)

theorem step (hb : b.Ticketed) (hl : b.Lent) (hs : Step b x b') : b'.Ticketed := by
  cases hs with
  | carried hc =>
      exact hb.shrink (Step.carried hc).ages (fun r e he => (pends_carried hc).mp he)
        (fun _ _ _ => rfl) fun _ _ hp => hp
  | @asked p r s s' method _ hs hreg =>
      obtain ⟨hopen, rfl⟩ := Session.register_spec hreg
      have hage := Session.carries_takeRequestId.ages (s := s)
      have henter : ((b.issue (some p)).setLine r _).Ticketed :=
        hb.enter hl (e := ⟨s.takeRequestId.1, method, b.nextTicket⟩) hs rfl rfl
          (hage.trans (Session.ages_pending fun hc => absurd hc hopen))
      refine ⟨henter.waits, henter.apart, fun q h hq => ?_⟩
      have hq : update b.handle p (some ⟨r, s.takeRequestId.1, b.nextTicket⟩) q = some h := hq
      rw [Function.update_apply] at hq
      split at hq
      · cases hq
        refine ⟨_, s.nextRequestId, line_setLine.trans (if_pos rfl), rfl, Int.lt_succ _⟩
      · exact henter.issued q h hq
  | dropped hp => exact hb.dropped hl hp
  | resolved r m =>
      unfold resolve
      cases m.id with
      | none => exact hb
      | some id => exact hb.take
  | closed hs hclose => exact hb.close hs hclose
  | registered hs hreg =>
      obtain ⟨hopen, rfl⟩ := Session.register_spec hreg
      exact hb.enter hl hs rfl rfl (Session.ages_pending fun hc => absurd hc hopen)
  | withdrawn r id => exact hb.take

theorem path (hb : b.Ticketed) (hl : b.Lent) (hp : Path b es b') : b'.Ticketed := by
  induction hp with
  | nil => exact hb
  | snoc hpath hs ih => exact ih.step (hl.path hpath) hs

end Ticketed

namespace Plied

theorem pends_dropped (hp : Plied p b b') (hh : b.handle p = some h)
    (hfree : b'.handle p ≠ some h) :
    b'.Pends r e ↔ b.Pends r e ∧ ¬ (r = h.session ∧ e.id = h.id) := by
  cases hp with
  | carried hc => exact (hfree hh).elim
  | asked hnone _ _ => cases hnone.symm.trans hh
  | dropped hc hk =>
      cases hk.symm.trans hh
      exact pends_dropHandle.trans (and_congr_left fun _ => pends_carried hc)

theorem pends_asked (hp : Plied p b b') (hnew : b.handle p ≠ some h) (hh : b'.handle p = some h) :
    ∃ method, (∀ e, b.Pends h.session e → e.id ≠ h.id) ∧
      ∀ r e, b'.Pends r e ↔ b.Pends r e ∨ r = h.session ∧ e = ⟨h.id, method, h.ticket⟩ := by
  cases hp with
  | carried hc => exact (hnew hh).elim
  | @asked r s s' method _ hs hreg =>
      have hh : update b.handle p (some ⟨r, s.takeRequestId.1, b.nextTicket⟩) p = some h := hh
      rw [Function.update_self] at hh
      cases hh
      obtain ⟨-, hs'⟩ := Session.register_spec hreg
      refine ⟨method, fun e he => ?_, fun q e => Board.pends_asked hs (by rw [hs']; rfl)⟩
      obtain ⟨s₁, hs₁, he⟩ := he
      cases hs.symm.trans hs₁
      exact Session.fresh_of_register hreg he
  | dropped hc hk =>
      have hh : update b.handle p none p = some h := hh
      rw [Function.update_self] at hh
      cases hh

theorem pends_same (hp : Plied p b b') (hsame : b'.handle p = b.handle p) :
    b'.Pends r e ↔ b.Pends r e := by
  cases hp with
  | carried hc => exact pends_carried hc
  | @asked r s s' method hnone hs hreg =>
      have hsame : update b.handle p (some ⟨r, s.takeRequestId.1, b.nextTicket⟩) p = b.handle p :=
        hsame
      rw [Function.update_self, hnone] at hsame
      cases hsame
  | dropped hc hk =>
      have hsame : update b.handle p none p = b.handle p := hsame
      rw [Function.update_self, hk] at hsame
      cases hsame

end Plied

namespace Path

theorem pends (hp : Path b es b') (he : b'.Pends r e) (hlt : e.ticket < b.nextTicket) :
    b.Pends r e := by
  induction hp with
  | nil => exact he
  | snoc hpath hs ih =>
      refine ih ((hs.pends he).resolve_right fun hnew => ?_)
      exact absurd hlt (Nat.not_lt.mpr (hnew.1 ▸ hpath.nextTicket_le))

theorem pends_or_unissued (hp : Path b es b') (hx : .hosted ∉ es) (he : b'.Pends r e) :
    b.Pends r e ∨ ¬ b.Issued r e.id := by
  induction hp with
  | nil => exact .inl he
  | snoc hpath hs ih =>
      simp only [List.mem_append, List.mem_singleton, not_or] at hx
      rcases hs.pends he with hold | ⟨-, hnew⟩
      · exact ih hx.1 hold
      · exact .inr fun hi => hnew (Ne.symm hx.2) (hi.mono hpath.ages)

theorem gone_of_arrival (hp : Path b es b') (hlt : e.ticket < b.nextTicket)
    (hmem : (r, m) ∈ es.filterMap Errand.arrival?) (hid : m.id = some e.id) : ¬ b'.Pends r e := by
  induction hp with
  | nil => cases hmem
  | @snoc es b₁ b₂ x hpath hs ih =>
      intro he
      have hlt₁ := Nat.lt_of_lt_of_le hlt hpath.nextTicket_le
      rw [List.filterMap_append, List.mem_append] at hmem
      rcases hmem with hmem | hmem
      · exact ih hmem ((Path.single hs).pends he hlt₁)
      · cases x with
        | arrived q m' =>
            obtain ⟨rfl, rfl⟩ : r = q ∧ m = m' := by simpa [Errand.arrival?] using hmem
            cases hs with
            | resolved => exact (pends_resolve.mp he).2 ⟨rfl, hid⟩
        | quiet | hosted => simp [Errand.arrival?] at hmem

theorem gone_of_dropped (hp : Path b es b') (hh : b.handle p = some h)
    (hfree : b'.handle p ≠ some h) (hlt : e.ticket < b.nextTicket) (hid : e.id = h.id) :
    ¬ b'.Pends h.session e := by
  suffices hall : b'.handle p = some h ∨ ¬ b'.Pends h.session e from hall.resolve_left hfree
  induction hp with
  | nil => exact .inl hh
  | @snoc es b₁ b₂ x hpath hs ih =>
      have hlt₁ := Nat.lt_of_lt_of_le hlt hpath.nextTicket_le
      by_cases hheld : b₁.handle p = some h
      · refine (hs.held_or_dropped hheld).imp_right ?_
        rintro rfl he
        exact (pends_dropHandle.mp he).2 ⟨rfl, hid⟩
      · have hgone := (ih hheld).resolve_left hheld
        exact .inr fun he => hgone ((Path.single hs).pends he hlt₁)

theorem stays_or_leaves (hb : b.Lent) (hp : Path b es b') (hx : .hosted ∉ es) (he : b.Pends r e) :
    b'.Pends r e ∨ (∃ m, (r, m) ∈ es.filterMap Errand.arrival? ∧ m.id = some e.id) ∨
      (∃ p h, b.handle p = some h ∧ b'.handle p ≠ some h ∧ h.session = r ∧ h.id = e.id) ∨
      b'.Closed r := by
  -- while it waits, nobody is given a handle with its id
  suffices hall : (b'.Pends r e ∧ ∀ q k, b'.handle q = some k → k.session = r → k.id = e.id →
      b.handle q = some k) ∨ (∃ m, (r, m) ∈ es.filterMap Errand.arrival? ∧ m.id = some e.id) ∨
      (∃ p h, b.handle p = some h ∧ b'.handle p ≠ some h ∧ h.session = r ∧ h.id = e.id) ∨
      b'.Closed r from hall.imp_left And.left
  induction hp with
  | nil => exact .inl ⟨he, fun _ _ hq _ _ => hq⟩
  | @snoc es b₁ b₂ x hpath hs ih =>
      simp only [List.mem_append, List.mem_singleton, not_or] at hx
      rcases ih hx.1 with ⟨he₁, hheld⟩ | ⟨m, hmem, hid⟩ | ⟨p, h, hp, hfree, hr, hid⟩ | hclosed
      · rcases hs.stays_or_leaves (Ne.symm hx.2) he₁ with
          he₂ | ⟨m, rfl, hid⟩ | ⟨p, h, hp, rfl, hr, hid⟩ | hclosed
        · refine .inl ⟨he₂, fun q k hq hr hid => hheld q k ?_ hr hid⟩
          refine (hs.handle_or_fresh hq).resolve_right fun hnew => ?_
          exact hnew.2 e (hr ▸ he₁) hid.symm
        · exact .inr (.inl ⟨m, by simp [Errand.arrival?], hid⟩)
        · exact .inr (.inr (.inl ⟨p, h, hheld p h hp hr hid, by simp, hr, hid⟩))
        · exact .inr (.inr (.inr hclosed))
      · exact .inr (.inl ⟨m, by simp [hmem], hid⟩)
      · refine .inr (.inr (.inl ⟨p, h, hp, fun hh => ?_, hr, hid⟩))
        have hlt := Nat.lt_of_lt_of_le (hb.handle_lt p h hp) hpath.nextTicket_le
        exact hfree ((hs.handle hh).resolve_right (Nat.ne_of_lt hlt))
      · exact .inr (.inr (.inr (hclosed.mono hs.ages)))

theorem answered (hp : Path b es b') (ha : b'.Answered t m) (hlt : t < b.nextTicket) :
    b.Answered t m ∨ ∃ r e, (r, m) ∈ es.filterMap Errand.arrival? ∧ m.id = some e.id ∧
      e.ticket = t ∧ b.Pends r e := by
  induction hp with
  | nil => exact .inl ha
  | @snoc es b₁ b₂ x hpath hs ih =>
      rcases hs.answered ha with ha₁ | ⟨r, e, rfl, hid, rfl, he⟩
      · refine (ih ha₁).imp_right ?_
        rintro ⟨r, e, hmem, hrest⟩
        exact ⟨r, e, by simp [hmem], hrest⟩
      · exact .inr ⟨r, e, by simp [Errand.arrival?], hid, rfl, hpath.pends he hlt⟩

end Path

end Board

variable {g₀ g : Gateway} {ms : List Moment}

theorem Gateway.IsNew.ticketed (h₀ : g₀.IsNew) : g₀.board.Ticketed := by
  obtain ⟨settings, tools, epoch, rfl⟩ := h₀
  constructor
  case waits =>
    rintro r e ⟨s, hs, -⟩
    cases hs
  case apart =>
    rintro r q e e' ⟨s, hs, -⟩
    cases hs
  case issued => exact fun _ _ hp => by cases hp

theorem Run.ticketed (h₀ : g₀.IsNew) (hr : Run g₀ ms g) : g.board.Ticketed := by
  obtain ⟨es, hp, -⟩ := hr.boards h₀.numbered
  exact h₀.ticketed.path h₀.lent hp

end AgentGateway
