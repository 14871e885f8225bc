import AgentGateway.Proofs.Pending
/-!
A board on which only processes register requests: each request that waits belongs to one process,
which holds its ticket. Every step keeps this, and what has been answered, withdrawn or closed once
does not come back.
-/

namespace AgentGateway

open Function (update)

namespace Board

structure Matched (b : Board) : Prop where
  held : ∀ r e, b.Pends r e → ∃ p, b.handle p = some ⟨r, e.id, e.ticket⟩
  waits : ∀ r e, b.Pends r e → b.Waits e.ticket
  unclosed : ∀ r e, b.Pends r e → ¬ b.Closed r
  issued : ∀ p h, b.handle p = some h → b.Issued h.session h.id
  ticket_lt : ∀ p h, b.handle p = some h → h.ticket < b.nextTicket
  waiter_lt : ∀ t w, b.waiter t = some w → t < b.nextTicket
  alone : ∀ p q h h', b.handle p = some h → b.handle q = some h' → h.session = h'.session →
    h.id = h'.id → p = q
  single : ∀ p q h h', b.handle p = some h → b.handle q = some h' → h.ticket = h'.ticket → p = q

variable {b b' b₁ : Board} {r q : SessionRef} {s s' : Session} {e e' : Pending} {t t' : Ticket}
  {id : RequestId} {state : WaiterState} {ts : List Ticket} {m m' : Message} {x : Errand}
  {h h' : Handle} {p : ProcessId} {es : List Errand}

namespace Matched

theorem same_ticket (hb : b.Matched) (he : b.Pends r e) (he' : b.Pends q e')
    (ht : e.ticket = e'.ticket) : r = q ∧ e.id = e'.id := by
  obtain ⟨p, hp⟩ := hb.held r e he
  obtain ⟨p', hp'⟩ := hb.held q e' he'
  obtain rfl := hb.single p p' _ _ hp hp' ht
  obtain ⟨hr, hid, -⟩ := Handle.mk.inj (Option.some.inj (hp.symm.trans hp'))
  exact ⟨hr, hid⟩

theorem same_id (hb : b.Matched) (he : b.Pends r e) (he' : b.Pends r e') (hid : e.id = e'.id) :
    e.ticket = e'.ticket := by
  obtain ⟨p, hp⟩ := hb.held r e he
  obtain ⟨p', hp'⟩ := hb.held r e' he'
  obtain rfl := hb.alone p p' _ _ hp hp' rfl hid
  exact congrArg Handle.ticket (Option.some.inj (hp.symm.trans hp'))

theorem own (hb : b.Matched) (hp : b.handle p = some h) (he : b.Pends h.session e)
    (hid : e.id = h.id) : e.ticket = h.ticket := by
  obtain ⟨q, hq⟩ := hb.held _ e he
  obtain rfl := hb.alone q p _ _ hq hp rfl hid
  exact congrArg Handle.ticket (Option.some.inj (hq.symm.trans hp))

theorem pending_lt (hb : b.Matched) (he : b.Pends r e) : e.ticket < b.nextTicket := by
  obtain ⟨p, hp⟩ := hb.held r e he
  exact hb.ticket_lt p _ hp

theorem pending_issued (hb : b.Matched) (he : b.Pends r e) : b.Issued r e.id := by
  obtain ⟨p, hp⟩ := hb.held r e he
  exact hb.issued p _ hp

end Matched

theorem closed_take : (b.take r id state).Closed q ↔ b.Closed q := by
  rcases take_cases r id state b with ⟨hb, -⟩ | ⟨e, s, hs, -, -, hb⟩
  · rw [hb]
  · rw [hb, Closed]
    change (∃ s', (b.setLine r _).line q = some s' ∧ _) ↔ _
    rw [line_setLine]
    split
    · rename_i hq
      simp [Closed, hq, hs]
    · rfl

theorem pends_carried {line : SessionRef → Option Session}
    (hc : ∀ r, Gateway.CarriedTo (b.line r) (line r)) :
    Pends r e { b with line } ↔ b.Pends r e := by
  have hr := hc r
  unfold Pends
  cases hs : b.line r with
  | none =>
      rw [hs] at hr
      constructor
      · rintro ⟨s, hs', he⟩
        rw [(hr s hs').1] at he
        cases he
      · rintro ⟨s, hs', -⟩
        cases hs'
  | some s =>
      rw [hs] at hr
      obtain ⟨s', hs', hcar⟩ := hr
      simp [hs', hcar.pending]

theorem waiter_issue {holder : Option ProcessId} : (b.issue holder).waiter t =
    (b.waiter t).or (if t = b.nextTicket then some { holder } else none) := rfl

theorem pends_asked {b : Board} {holder : Option ProcessId} (hs : b.line r = some s)
    (hpend : s'.pending = s.pending ++ [e']) :
    ((b.issue holder).setLine r s').Pends q e ↔ b.Pends q e ∨ (q = r ∧ e = e') := by
  refine pends_setLine.trans ?_
  have hp : b.Pends r e ↔ e ∈ s.pending :=
    ⟨fun ⟨x, hx, he⟩ => Option.some.inj (hs.symm.trans hx) ▸ he, fun he => ⟨s, hs, he⟩⟩
  split
  · rename_i hq
    subst hq
    simp [hp, hpend]
  · rename_i hq
    simp only [hq, false_and, or_false]
    rfl

theorem pends_dropHandle :
    (b.dropHandle h).Pends q e ↔ b.Pends q e ∧ ¬ (q = h.session ∧ e.id = h.id) := by
  rw [dropHandle]
  exact pends_take

theorem pends_resolve :
    (b.resolve r m).Pends q e ↔ b.Pends q e ∧ ¬ (q = r ∧ m.id = some e.id) := by
  unfold resolve
  cases hid : m.id with
  | none => simp
  | some id =>
      rw [Option.elim_some, pends_take]
      simp [eq_comm]

theorem pends_closed (hs' : s'.pending = []) :
    ((b.setLine r s').settleAll ts state).Pends q e ↔ b.Pends q e ∧ q ≠ r := by
  have hp : ((b.setLine r s').settleAll ts state).Pends q e ↔ (b.setLine r s').Pends q e := by
    unfold Pends
    rw [line_settleAll]
  rw [hp, pends_setLine]
  split
  · rename_i hq
    simp [hq, hs']
  · rename_i hq
    simp [hq]

theorem Matched.carried (hb : b.Matched) {line : SessionRef → Option Session}
    (hc : ∀ r, Gateway.CarriedTo (b.line r) (line r)) : Matched { b with line } := by
  have hage : b.Ages { b with line } := (Step.carried hc).ages
  refine ⟨fun r e he => hb.held r e ((pends_carried hc).mp he),
    fun r e he => hb.waits r e ((pends_carried hc).mp he), fun r e he hclosed => ?_,
    fun p h hp => (hb.issued p h hp).mono hage, hb.ticket_lt, hb.waiter_lt, hb.alone, hb.single⟩
  have hpend := (pends_carried hc).mp he
  obtain ⟨s, hs, -⟩ := hpend
  have hr := hc r
  rw [hs] at hr
  obtain ⟨s', hs', hcar⟩ := hr
  obtain ⟨s₁, hs₁, hstat⟩ := hclosed
  cases hs'.symm.trans hs₁
  exact hb.unclosed r e ((pends_carried hc).mp he) ⟨s, hs, hcar.closed.mp hstat⟩

theorem Matched.asked (hb : b.Matched) {method : String} (hp : b.handle p = none)
    (hs : b.line r = some s)
    (hreg : s.takeRequestId.2.register ⟨s.takeRequestId.1, method, b.nextTicket⟩ = .ok s') :
    Matched { (b.issue (some p)).setLine r s' with
      handle := update b.handle p (some ⟨r, s.takeRequestId.1, b.nextTicket⟩) } := by
  have hage := (Step.asked hp hs hreg).ages
  obtain ⟨hopen, hs'⟩ := Session.register_spec hreg
  have hpend : s'.pending = s.pending ++ [⟨s.takeRequestId.1, method, b.nextTicket⟩] := by
    rw [hs']
    rfl
  have hnew {q : ProcessId} {h : Handle} (hq : b.handle q = some h) :
      ¬ (h.session = r ∧ h.id = s.takeRequestId.1) := by
    rintro ⟨hr, hid⟩
    obtain ⟨s₁, n, hs₁, hn, hlt⟩ := hb.issued q h hq
    rw [hr] at hs₁
    cases hs.symm.trans hs₁
    cases hid.symm.trans hn
    exact Int.lt_irrefl _ hlt
  have hhandle {q : ProcessId} {h : Handle}
      (hq : update b.handle p (some ⟨r, s.takeRequestId.1, b.nextTicket⟩) q = some h) :
      (q = p ∧ h = ⟨r, s.takeRequestId.1, b.nextTicket⟩) ∨ (q ≠ p ∧ b.handle q = some h) := by
    rw [Function.update_apply] at hq
    split at hq
    · rename_i heq
      exact .inl ⟨heq, (Option.some.inj hq).symm⟩
    · rename_i hne
      exact .inr ⟨hne, hq⟩
  constructor
  case held =>
    intro q e he
    rcases (pends_asked hs hpend).mp he with he | ⟨rfl, rfl⟩
    · obtain ⟨q', hq'⟩ := hb.held q e he
      have hne : q' ≠ p := by
        rintro rfl
        simp [hp] at hq'
      exact ⟨q', by simp [hne, hq']⟩
    · exact ⟨p, by simp⟩
  case waits =>
    intro q e he
    rcases (pends_asked hs hpend).mp he with he | ⟨rfl, rfl⟩
    · obtain ⟨w, hw, hstate⟩ := hb.waits q e he
      refine ⟨w, ?_, hstate⟩
      change (b.issue (some p)).waiter e.ticket = some w
      rw [waiter_issue, hw]
      rfl
    · have hnone : b.waiter b.nextTicket = none := by
        cases hw : b.waiter b.nextTicket with
        | none => rfl
        | some w => exact absurd (hb.waiter_lt _ w hw) (Nat.lt_irrefl _)
      refine ⟨{ holder := some p }, ?_, rfl⟩
      change (b.issue (some p)).waiter b.nextTicket = _
      rw [waiter_issue, hnone, if_pos rfl]
      rfl
  case unclosed =>
    intro q e he hclosed
    obtain ⟨s₁, hs₁, hstat⟩ := hclosed
    have hs₁ : ((b.issue (some p)).setLine r s').line q = some s₁ := hs₁
    rw [line_setLine] at hs₁
    split at hs₁
    · cases hs₁
      rw [hs'] at hstat
      exact hopen hstat
    · rename_i hq
      rcases (pends_asked hs hpend).mp he with he | ⟨rfl, -⟩
      · exact hb.unclosed q e he ⟨s₁, hs₁, hstat⟩
      · exact hq rfl
  case issued =>
    intro q h hq
    rcases hhandle hq with ⟨rfl, rfl⟩ | ⟨-, hq⟩
    · refine ⟨s', s.nextRequestId, ?_, rfl, ?_⟩
      · change ((b.issue (some q)).setLine r s').line r = some s'
        rw [line_setLine, if_pos rfl]
      · rw [hs']
        exact Int.lt_succ _
    · exact (hb.issued q h hq).mono hage
  case ticket_lt =>
    intro q h hq
    rcases hhandle hq with ⟨-, rfl⟩ | ⟨-, hq⟩
    · exact Nat.lt_succ_self _
    · exact Nat.lt_succ_of_lt (hb.ticket_lt q h hq)
  case waiter_lt =>
    intro t w hw
    have hw : (b.issue (some p)).waiter t = some w := hw
    rw [waiter_issue] at hw
    cases hold : b.waiter t with
    | some w' => exact Nat.lt_succ_of_lt (hb.waiter_lt t w' hold)
    | none =>
        rw [hold, Option.none_or] at hw
        split at hw
        · rename_i ht
          rw [ht]
          exact Nat.lt_succ_self _
        · cases hw
  case alone =>
    intro q q' h h' hq hq' hsame hid
    rcases hhandle hq with ⟨rfl, rfl⟩ | ⟨-, hq₁⟩ <;> rcases hhandle hq' with ⟨rfl, rfl⟩ | ⟨-, hq₂⟩
    · rfl
    · exact (hnew hq₂ ⟨hsame.symm, hid.symm⟩).elim
    · exact (hnew hq₁ ⟨hsame, hid⟩).elim
    · exact hb.alone _ _ _ _ hq₁ hq₂ hsame hid
  case single =>
    intro q q' h h' hq hq' ht
    rcases hhandle hq with ⟨rfl, rfl⟩ | ⟨-, hq₁⟩ <;> rcases hhandle hq' with ⟨rfl, rfl⟩ | ⟨-, hq₂⟩
    · rfl
    · exact absurd (hb.ticket_lt _ _ hq₂) (by rw [← ht]; exact Nat.lt_irrefl _)
    · exact absurd (hb.ticket_lt _ _ hq₁) (by rw [ht]; exact Nat.lt_irrefl _)
    · exact hb.single _ _ _ _ hq₁ hq₂ ht

theorem Matched.taken (hb : b.Matched) (hpend : ∀ q e, b'.Pends q e → b.Pends q e)
    (hwait : ∀ q e, b'.Pends q e → b'.waiter e.ticket = b.waiter e.ticket)
    (hheld : ∀ q e, b'.Pends q e → ∃ p, b'.handle p = some ⟨q, e.id, e.ticket⟩)
    (hclosed : ∀ q e, b'.Pends q e → b'.Closed q → b.Closed q) (hage : b.Ages b')
    (hhandle : ∀ p h, b'.handle p = some h → b.handle p = some h)
    (hnext : b'.nextTicket = b.nextTicket)
    (hwaiter : ∀ t w, b'.waiter t = some w → ∃ w', b.waiter t = some w') : b'.Matched where
  held := hheld
  waits q e he := by
    obtain ⟨w, hw, hstate⟩ := hb.waits q e (hpend q e he)
    exact ⟨w, (hwait q e he).trans hw, hstate⟩
  unclosed q e he hc := hb.unclosed q e (hpend q e he) (hclosed q e he hc)
  issued p h hp := (hb.issued p h (hhandle p h hp)).mono hage
  ticket_lt p h hp := hnext ▸ hb.ticket_lt p h (hhandle p h hp)
  waiter_lt t w hw := by
    obtain ⟨w', hw'⟩ := hwaiter t w hw
    exact hnext ▸ hb.waiter_lt t w' hw'
  alone p q h h' hp hq := hb.alone p q h h' (hhandle p h hp) (hhandle q h' hq)
  single p q h h' hp hq := hb.single p q h h' (hhandle p h hp) (hhandle q h' hq)

theorem Matched.dropped (hb : b.Matched) (hp : b.handle p = some h) :
    Matched { b.dropHandle h with handle := update b.handle p none } := by
  have hpend {q : SessionRef} {e : Pending}
      (he : Pends q e { b.dropHandle h with handle := update b.handle p none }) :
      b.Pends q e ∧ ¬ (q = h.session ∧ e.id = h.id) := pends_dropHandle.mp he
  have hother {q : SessionRef} {e : Pending} (he : b.Pends q e)
      (hne : ¬ (q = h.session ∧ e.id = h.id)) {q' : ProcessId}
      (hq' : b.handle q' = some ⟨q, e.id, e.ticket⟩) : q' ≠ p := by
    rintro rfl
    obtain rfl := Option.some.inj (hq'.symm.trans hp)
    exact hne ⟨rfl, rfl⟩
  refine hb.taken (fun q e he => (hpend he).1) (fun q e he => ?_) (fun q e he => ?_)
    (fun q e _ hc => closed_take.mp hc) (Step.dropped hp).ages (fun q h' hq => ?_) nextTicket_take
    fun t w hw => ?_
  · obtain ⟨he, hne⟩ := hpend he
    obtain ⟨q', hq'⟩ := hb.held q e he
    have htick : e.ticket ≠ h.ticket := fun heq =>
      hother he hne hq' (hb.single q' p _ _ hq' hp heq)
    change update (b.cancelPending h.session h.id).waiter h.ticket none e.ticket = _
    rw [Function.update_of_ne htick]
    rcases waiter_take b h.session h.id .cancelled e.ticket with hsame | ⟨e', he', hid, ht, -⟩
    · exact hsame
    · obtain ⟨hr, hids⟩ := hb.same_ticket he' he ht
      exact (hne ⟨hr.symm, hids.symm.trans hid⟩).elim
  · obtain ⟨he, hne⟩ := hpend he
    obtain ⟨q', hq'⟩ := hb.held q e he
    exact ⟨q', by simp [hother he hne hq', hq']⟩
  · have hq : update b.handle p none q = some h' := hq
    rw [Function.update_apply] at hq
    split at hq
    · cases hq
    · exact hq
  · have hw : update (b.cancelPending h.session h.id).waiter h.ticket none t = some w := hw
    rw [Function.update_apply] at hw
    split at hw
    · cases hw
    · rcases waiter_take b h.session h.id .cancelled t with hsame | ⟨e', -, -, -, hmap⟩
      · exact ⟨w, hsame.symm.trans hw⟩
      · rw [cancelPending, hmap] at hw
        obtain ⟨w', hw', -⟩ := Option.map_eq_some_iff.mp hw
        exact ⟨w', hw'⟩

theorem Matched.take (hb : b.Matched) : (b.take r id state).Matched := by
  refine hb.taken (fun q e he => (pends_take.mp he).1) (fun q e he => ?_) (fun q e he => ?_)
    (fun q e _ hc => closed_take.mp hc) ages_take (fun q h' hq => ?_) nextTicket_take
    fun t w hw => ?_
  · obtain ⟨he, hne⟩ := pends_take.mp he
    rcases waiter_take b r id state e.ticket with hsame | ⟨e', he', hid, ht, -⟩
    · exact hsame
    · obtain ⟨hr, hids⟩ := hb.same_ticket he' he ht
      exact (hne ⟨hr.symm, hids.symm.trans hid⟩).elim
  · rw [handle_take]
    exact hb.held q e (pends_take.mp he).1
  · rwa [handle_take] at hq
  · rcases waiter_take b r id state t with hsame | ⟨e', -, -, -, hmap⟩
    · exact ⟨w, hsame.symm.trans hw⟩
    · rw [hmap] at hw
      obtain ⟨w', hw', -⟩ := Option.map_eq_some_iff.mp hw
      exact ⟨w', hw'⟩

theorem Matched.resolve (hb : b.Matched) : (b.resolve r m).Matched := by
  unfold Board.resolve
  cases m.id with
  | none => exact hb
  | some id => exact hb.take

theorem Matched.close (hb : b.Matched) (hs : b.line r = some s) (hclose : s.close = some (ts, s')) :
    ((b.setLine r s').settleAll ts .cancelled).Matched := by
  have hage := (Step.closed hs hclose).ages
  obtain ⟨hts, hpend, -, -, -⟩ := Session.close_spec hclose
  have hp {q : SessionRef} {e : Pending}
      (he : ((b.setLine r s').settleAll ts .cancelled).Pends q e) : b.Pends q e ∧ q ≠ r :=
    (pends_closed hpend).mp he
  refine hb.taken (fun q e he => (hp he).1) (fun q e he => ?_) (fun q e he => ?_)
    (fun q e he hc => ?_) hage (fun q h' hq => ?_) nextTicket_settleAll fun t w hw => ?_
  · obtain ⟨he, hq⟩ := hp he
    rw [waiter_settleAll, if_neg]
    · rfl
    · rw [hts]
      intro hmem
      obtain ⟨e', he', ht⟩ := List.mem_map.mp hmem
      exact hq (hb.same_ticket ⟨s, hs, he'⟩ he ht).1.symm
  · rw [handle_settleAll]
    exact hb.held q e (hp he).1
  · obtain ⟨s₁, hs₁, hstat⟩ := hc
    rw [line_settleAll, line_setLine, if_neg (hp he).2] at hs₁
    exact ⟨s₁, hs₁, hstat⟩
  · rwa [handle_settleAll] at hq
  · rw [waiter_settleAll] at hw
    split at hw
    · obtain ⟨w', hw', -⟩ := Option.map_eq_some_iff.mp hw
      exact ⟨w', hw'⟩
    · exact ⟨w, hw⟩

theorem Matched.step (hb : b.Matched) (hs : Step b x b') (hx : x ≠ .hosted) : b'.Matched := by
  cases hs with
  | carried hc => exact hb.carried hc
  | asked hp hl hreg => exact hb.asked hp hl hreg
  | dropped hp => exact hb.dropped hp
  | resolved r m => exact hb.resolve
  | closed hl hclose => exact hb.close hl hclose
  | registered _ _ => exact (hx rfl).elim
  | withdrawn _ _ => exact (hx rfl).elim

theorem Matched.path (hb : b.Matched) (hp : Path b es b') (hx : .hosted ∉ es) : b'.Matched := by
  induction hp with
  | nil => exact hb
  | snoc _ hstep ih =>
      simp only [List.mem_append, List.mem_singleton, not_or] at hx
      exact (ih hx.1).step hstep (Ne.symm hx.2)

end Board

end AgentGateway
