import AgentGateway.Proofs.Correlation
/-!
Tickets on a board on which the host may work too. A ticket is given once, for one request: what is
handed to its holder has come in as the response to that request, and once the holder has let it go,
nothing waits under it any more.
-/

namespace AgentGateway

open Function (update)
open scoped List

namespace Board

structure Lent (b : Board) : Prop where
  entry_lt : ∀ r e, b.Pends r e → e.ticket < b.nextTicket
  handle_lt : ∀ p h, b.handle p = some h → h.ticket < b.nextTicket
  waiter_lt : ∀ t w, b.waiter t = some w → t < b.nextTicket
  own : ∀ p h r e, b.handle p = some h → b.Pends r e → e.ticket = h.ticket →
    r = h.session ∧ e.id = h.id

def Gone (t : Ticket) (b : Board) : Prop := (∀ r e, b.Pends r e → e.ticket ≠ t) ∧ t < b.nextTicket

variable {b b' : Board} {r : SessionRef} {s s' : Session} {e : Pending} {t : Ticket}
  {id : RequestId} {state : WaiterState} {ts : List Ticket} {m : Message} {x : Errand}
  {h : Handle} {p : ProcessId} {es : List Errand}

namespace Lent

theorem shrink (hb : b.Lent) (hnext : b'.nextTicket = b.nextTicket)
    (hpend : ∀ r e, b'.Pends r e → b.Pends r e)
    (hhandle : ∀ p h, b'.handle p = some h → b.handle p = some h)
    (hwaiter : ∀ t w, b'.waiter t = some w → ∃ w', b.waiter t = some w') : b'.Lent where
  entry_lt r e he := hnext ▸ hb.entry_lt r e (hpend r e he)
  handle_lt p h hp := hnext ▸ hb.handle_lt p h (hhandle p h hp)
  waiter_lt t w hw := by
    obtain ⟨w', hw'⟩ := hwaiter t w hw
    exact hnext ▸ hb.waiter_lt t w' hw'
  own p h r e hp he := hb.own p h r e (hhandle p h hp) (hpend r e he)

theorem waiter_of_take {w : Waiter} (hw : (b.take r id state).waiter t = some w) :
    ∃ w', b.waiter t = some w' := by
  rcases waiter_take b r id state t with hsame | ⟨-, -, -, -, hmap⟩
  · exact ⟨w, hsame ▸ hw⟩
  · obtain ⟨w', hw', -⟩ := Option.map_eq_some_iff.mp (hmap.symm.trans hw)
    exact ⟨w', hw'⟩

theorem take (hb : b.Lent) : (b.take r id state).Lent := by
  refine hb.shrink nextTicket_take (fun r e he => (pends_take.mp he).1) (fun p h hp => ?_)
    fun t w hw => waiter_of_take hw
  rwa [handle_take] at hp

theorem dropped (hb : b.Lent) : Lent { b.dropHandle h with handle := update b.handle p none } := by
  refine hb.shrink nextTicket_take (fun r e he => (pends_dropHandle.mp he).1) (fun q k hq => ?_)
    fun t w hw => ?_
  · have hq : update b.handle p none q = some k := hq
    rw [Function.update_apply] at hq
    split at hq
    · cases hq
    · exact hq
  · have hw : update (b.cancelPending h.session h.id).waiter h.ticket none t = some w := hw
    rw [Function.update_apply] at hw
    split at hw
    · cases hw
    · exact waiter_of_take hw

theorem close (hb : b.Lent) (hclose : s.close = some (ts, s')) :
    ((b.setLine r s').settleAll ts .cancelled).Lent := by
  obtain ⟨-, hpend, -⟩ := Session.close_spec hclose
  refine hb.shrink nextTicket_settleAll (fun q e he => ((pends_closed hpend).mp he).1)
    (fun p h hp => ?_) fun t w hw => ?_
  · rwa [handle_settleAll] at hp
  · rw [waiter_settleAll] at hw
    split at hw
    · obtain ⟨w', hw', -⟩ := Option.map_eq_some_iff.mp hw
      exact ⟨w', hw'⟩
    · exact ⟨w, hw⟩

theorem enter (hb : b.Lent) {holder : Option ProcessId} (hs : b.line r = some s)
    (hpend : s'.pending = s.pending ++ [e]) (ht : e.ticket = b.nextTicket) :
    ((b.issue holder).setLine r s').Lent where
  entry_lt q e' he := by
    rcases (pends_asked hs hpend).mp he with he | ⟨-, rfl⟩
    · exact Nat.lt_succ_of_lt (hb.entry_lt q e' he)
    · rw [ht]
      exact Nat.lt_succ_self _
  handle_lt p h hp := Nat.lt_succ_of_lt (hb.handle_lt p h hp)
  waiter_lt t w hw := by
    have hw : (b.issue holder).waiter t = some w := hw
    rw [waiter_issue, Option.or_eq_some_iff] at hw
    rcases hw with hw | ⟨-, hw⟩
    · exact Nat.lt_succ_of_lt (hb.waiter_lt t w hw)
    · split at hw
      · rename_i heq
        rw [heq]
        exact Nat.lt_succ_self _
      · cases hw
  own p h q e' hp he heq := by
    rcases (pends_asked hs hpend).mp he with he | ⟨-, rfl⟩
    · exact hb.own p h q e' hp he heq
    · exact absurd (hb.handle_lt p h hp) (by rw [← heq, ht]; exact Nat.lt_irrefl _)

theorem assign (hb : b.Lent) (hlt : h.ticket < b.nextTicket)
    (hown : ∀ r e, b.Pends r e → e.ticket = h.ticket → r = h.session ∧ e.id = h.id) :
    Lent { b with handle := update b.handle p (some h) } where
  entry_lt := hb.entry_lt
  waiter_lt := hb.waiter_lt
  handle_lt q k hq := by
    have hq : update b.handle p (some h) q = some k := hq
    rw [Function.update_apply] at hq
    split at hq
    · cases hq
      exact hlt
    · exact hb.handle_lt q k hq
  own q k r e hq he heq := by
    have hq : update b.handle p (some h) q = some k := hq
    rw [Function.update_apply] at hq
    split at hq
    · cases hq
      exact hown r e he heq
    · exact hb.own q k r e hq he heq

theorem step (hb : b.Lent) (hs : Step b x b') : b'.Lent := by
  cases hs with
  | carried hc =>
      exact hb.shrink rfl (fun r e he => (pends_carried hc).mp he) (fun p h hp => hp)
        fun t w hw => ⟨w, hw⟩
  | @asked p r s s' method _ hl hreg =>
      obtain ⟨-, rfl⟩ := Session.register_spec hreg
      refine (hb.enter hl rfl rfl).assign (Nat.lt_succ_self _) fun q e he heq => ?_
      rcases (pends_asked hl rfl).mp he with he | ⟨rfl, rfl⟩
      · exact absurd (hb.entry_lt q e he) (by rw [heq]; exact Nat.lt_irrefl _)
      · exact ⟨rfl, rfl⟩
  | dropped _ => exact hb.dropped
  | resolved r m =>
      unfold resolve
      cases m.id with
      | none => exact hb
      | some id => exact hb.take
  | closed _ hclose => exact hb.close hclose
  | registered hl hreg =>
      obtain ⟨-, rfl⟩ := Session.register_spec hreg
      exact hb.enter hl rfl rfl
  | withdrawn r id => exact hb.take

theorem path (hb : b.Lent) (hp : Path b es b') : b'.Lent := by
  induction hp with
  | nil => exact hb
  | snoc _ hs ih => exact ih.step hs

end Lent

theorem Gone.step (hg : b.Gone t) (hs : Step b x b') : b'.Gone t := by
  refine ⟨fun r e he heq => ?_, Nat.lt_of_lt_of_le hg.2 hs.nextTicket_le⟩
  rcases hs.pends he with hold | ⟨hnew, -⟩
  · exact hg.1 r e hold heq
  · exact absurd hg.2 (by rw [← heq, hnew]; exact Nat.lt_irrefl _)

theorem Step.held_or_dropped (hs : Step b x b') (hh : b.handle p = some h) :
    b'.handle p = some h ∨ b' = { b.dropHandle h with handle := update b.handle p none } := by
  cases hs with
  | carried _ | registered _ _ => exact .inl hh
  | @asked q _ _ _ _ hq _ _ =>
      refine .inl ?_
      have hne : p ≠ q := by
        rintro rfl
        cases hh.symm.trans hq
      exact (Function.update_of_ne hne ..).trans hh
  | @dropped q k hq =>
      by_cases heq : p = q
      · subst heq
        cases hh.symm.trans hq
        exact .inr rfl
      · exact .inl ((Function.update_of_ne heq ..).trans hh)
  | resolved r m =>
      unfold resolve
      cases m.id with
      | none => exact .inl hh
      | some id => exact .inl (by rw [Option.elim_some, handle_take]; exact hh)
  | closed _ _ => exact .inl (by rw [handle_settleAll]; exact hh)
  | withdrawn r id => exact .inl (by rw [cancelPending, handle_take]; exact hh)

theorem Step.forgets (hs : Step b x b') (hb : b.Lent) (hh : b.handle p = some h) :
    b'.handle p = some h ∨ b'.Gone h.ticket := by
  have hnext := hs.nextTicket_le
  refine (hs.held_or_dropped hh).imp_right ?_
  rintro rfl
  refine ⟨fun r e he ht => ?_, Nat.lt_of_lt_of_le (hb.handle_lt p h hh) hnext⟩
  obtain ⟨he, hother⟩ := pends_dropHandle.mp he
  exact hother (hb.own p h r e hh he ht)

theorem Path.forgets (hp : Path b es b') (hb : b.Lent) (hh : b.handle p = some h) :
    b'.handle p = some h ∨ b'.Gone h.ticket := by
  induction hp with
  | nil => exact .inl hh
  | snoc hpath hs ih =>
      rcases ih with hheld | hgone
      · exact hs.forgets (hb.path hpath) hheld
      · exact .inr (hgone.step hs)

theorem Lent.answered (hb : b.Lent) (hp : Path b es b') (hh : b'.handle p = some h)
    (ha : b'.Answered h.ticket m) : (b.handle p = some h ∧ b.Answered h.ticket m) ∨
      (h.session, m) ∈ es.filterMap Errand.arrival? ∧ m.id = some h.id := by
  induction hp with
  | nil => exact .inl ⟨hh, ha⟩
  | @snoc es b₁ b₂ x hpath hs ih =>
      have hb₁ := hb.path hpath
      have hold (hlt : h.ticket < b₁.nextTicket) : b₁.handle p = some h :=
        (hs.handle hh).resolve_right (Nat.ne_of_lt hlt)
      rcases hs.answered ha with ha₁ | ⟨r, e, rfl, hid, ht, he⟩
      · obtain ⟨w, hw, -⟩ := id ha₁
        refine (ih (hold (hb₁.waiter_lt _ w hw)) ha₁).imp_right ?_
        rintro ⟨hmem, hid⟩
        exact ⟨by simp [hmem], hid⟩
      · have hh₁ := hold (ht ▸ hb₁.entry_lt r e he)
        obtain ⟨rfl, heid⟩ := hb₁.own p h r e hh₁ he ht
        exact .inr ⟨by simp [Errand.arrival?], heid ▸ hid⟩

end Board

namespace Moment

/-- The response that a process gets as the result of its request at a moment, and the session of
the request. -/
def receipt? (p : ProcessId) (m : Moment) : Option (SessionRef × Message) :=
  (m.before.held? p).bind fun h => ((m.after.process? p).bind Process.result?).bind fun result =>
    result.toOption.map fun msg => (h.session, msg)

variable {m : Moment} {p : ProcessId} {x : SessionRef × Message}

theorem receipt?_eq_some :
    m.receipt? p = some x ↔ ∃ h, m.Returns p h x.2 ∧ h.session = x.1 := by
  obtain ⟨r, msg⟩ := x
  constructor
  · intro hx
    obtain ⟨h, hh, hx⟩ := Option.bind_eq_some_iff.mp hx
    obtain ⟨result, hresult, hx⟩ := Option.bind_eq_some_iff.mp hx
    cases result with
    | error e => cases hx
    | ok msg' =>
        cases hx
        exact ⟨h, ⟨hh, hresult⟩, rfl⟩
  · rintro ⟨h, ⟨hh, hresult⟩, rfl⟩
    simp [receipt?, hh, hresult, Except.toOption]

end Moment

open Gateway

variable {g₀ g₁ g : Gateway} {ms before after : List Moment} {m : Moment} {p : ProcessId}
  {h : Handle} {r : SessionRef} {e : Pending}

theorem Gateway.IsNew.lent (h₀ : g₀.IsNew) : g₀.board.Lent := by
  obtain ⟨settings, tools, epoch, rfl⟩ := h₀
  constructor
  case entry_lt =>
    rintro r e ⟨s, hs, -⟩
    cases hs
  case handle_lt | waiter_lt => exact fun _ _ h => by cases h
  case own => exact fun _ _ _ _ h => by cases h

theorem Run.lent (h₀ : g₀.IsNew) (hr : Run g₀ ms g) : g.board.Lent := by
  obtain ⟨es, hp, -⟩ := hr.boards h₀.numbered
  exact h₀.lent.path hp

theorem Run.forgets (hn : g₁.Numbered) (hl : g₁.board.Lent) (hr : Run g₁ ms g)
    (hh : g₁.held? p = some h) : g.held? p = some h ∨ g.board.Gone h.ticket := by
  obtain ⟨es, hp, -⟩ := hr.boards hn
  exact hp.forgets hl hh

theorem Run.forgotten (h₀ : g₀.IsNew) (hr : Run g₀ (before ++ m :: after) g)
    (hh : m.after.held? p = some h) (hfree : g.held? p ≠ some h) (he : g.Pends r e) :
    e.ticket ≠ h.ticket := by
  obtain ⟨hrun, hstep, hrest⟩ := hr.split rfl
  have hrun := hrun.snoc hstep
  have hgone := (hrest.forgets (hrun.numbered h₀.numbered) (hrun.lent h₀) hh).resolve_left hfree
  exact hgone.1 r e he

/-- The responses that a process has got since it held nothing: each has come in since then, the
later ones later, and has answered the request for which it was got. -/
structure Received (p : ProcessId) (ms : List Moment) (g : Gateway) : Prop where
  arrived : ms.filterMap (Moment.receipt? p) <+ ms.filterMap Moment.arrival?
  named : ∀ m ∈ ms, ∀ h msg, m.Returns p h msg → msg.id = some h.id
  coming : ∀ h msg, g.held? p = some h → g.Answered h.ticket msg → msg.id = some h.id ∧
    ms.filterMap (Moment.receipt? p) ++ [(h.session, msg)] <+ ms.filterMap Moment.arrival?

theorem Received.snoc {a : Act} {g' : Gateway} (hrec : Received p ms g) (hn : g.Numbered)
    (hl : g.board.Lent) (hstep : g.perform a = some g') :
    Received p (ms ++ [⟨g, a, g'⟩]) g' := by
  obtain ⟨es, hpath, harr, -⟩ := posted_perform hn hstep
  have hreturned {h : Handle} {msg : Message} (hret : Moment.Returns p h msg ⟨g, a, g'⟩) :
      msg.id = some h.id ∧ ms.filterMap (Moment.receipt? p) ++ [(h.session, msg)] <+
        ms.filterMap Moment.arrival? :=
    hrec.coming h msg hret.1 (answered_of_returns hn hstep hret).1
  have harrivals : (ms ++ [(⟨g, a, g'⟩ : Moment)]).filterMap Moment.arrival? =
      ms.filterMap Moment.arrival? ++ es.filterMap Errand.arrival? := by
    rw [filterMap_snoc, harr]
  constructor
  case arrived =>
    rw [harrivals, filterMap_snoc]
    cases hx : Moment.receipt? p ⟨g, a, g'⟩ with
    | none =>
        rw [Option.toList_none, List.append_nil]
        exact hrec.arrived.trans (List.sublist_append_left ..)
    | some x =>
        obtain ⟨h, hret, hsession⟩ := Moment.receipt?_eq_some.mp hx
        have hsub := (hreturned hret).2
        rw [hsession] at hsub
        exact hsub.trans (List.sublist_append_left ..)
  case named =>
    intro m hm h msg hret
    rcases List.mem_append.mp hm with hm | hm
    · exact hrec.named m hm h msg hret
    · rw [List.mem_singleton.mp hm] at hret
      exact (hreturned hret).1
  case coming =>
    intro h msg hh ha
    -- whoever holds a handle at the end of a moment has got nothing at it
    have hnone : Moment.receipt? p ⟨g, a, g'⟩ = none := by
      refine Option.eq_none_iff_forall_ne_some.mpr fun x hx => ?_
      obtain ⟨k, ⟨-, hresult⟩, -⟩ := Moment.receipt?_eq_some.mp hx
      obtain ⟨y, hy, hresult⟩ := Option.bind_eq_some_iff.mp hresult
      obtain ⟨c, hc, hresult⟩ := Option.bind_eq_some_iff.mp hresult
      have hh : c.handle? = some h := by
        rw [held?_eq hy, Process.handle?, hc] at hh
        exact hh
      unfold Call.handle? at hh
      split at hresult
      · rename_i hdone
        rw [hdone] at hh
        cases hh
      · cases hresult
    rw [harrivals, filterMap_snoc, hnone, Option.toList_none, List.append_nil]
    rcases hl.answered hpath hh ha with ⟨hheld, hans⟩ | ⟨hmem, hid⟩
    · obtain ⟨hid, hsub⟩ := hrec.coming h msg hheld hans
      exact ⟨hid, hsub.trans (List.sublist_append_left ..)⟩
    · exact ⟨hid, hrec.arrived.append (List.singleton_sublist.mpr hmem)⟩

theorem Run.received (hn : g₁.Numbered) (hl : g₁.board.Lent) (hfree : g₁.held? p = none)
    (hr : Run g₁ ms g) : Received p ms g := by
  induction hr with
  | nil =>
      refine ⟨.slnil, by simp, fun h msg hh => ?_⟩
      cases hfree.symm.trans hh
  | snoc hrun hstep ih =>
      obtain ⟨es, hp, -⟩ := hrun.boards hn
      exact ih.snoc (hrun.numbered hn) (hl.path hp) hstep

end AgentGateway
