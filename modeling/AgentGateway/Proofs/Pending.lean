import AgentGateway.Proofs.Board

namespace AgentGateway

open Function (update)

theorem SessionStatus.rank_le_closed (x : SessionStatus) : x.rank ≤ SessionStatus.closed.rank := by
  cases x <;> decide

namespace Session

/-- What a session can become: its ids are not given again, it does not go back, and what has been
closed stays so. -/
structure Ages (s s' : Session) : Prop where
  named : s'.id = s.id
  issued : s.nextRequestId ≤ s'.nextRequestId
  advanced : s.status.rank ≤ s'.status.rank
  closed : s.status = .closed → s'.status = .closed
  attached : s'.outbound.attached = true → s.outbound.attached = true
  receiving : s'.outbound.receiving = true → s.outbound.receiving = true
  regular : (s.outbound.attached = true ↔ s.status ≠ .closed) →
    (s'.outbound.attached = true ↔ s'.status ≠ .closed)
  vacant : (s.status = .closed → s.pending = []) → s'.status = .closed → s'.pending = []
  backed : s.outbound.Backed → s'.outbound.Backed

variable {s s' s'' : Session} {e : Pending} {ts : List Ticket}

theorem Ages.refl (s : Session) : s.Ages s :=
  ⟨rfl, Int.le_refl _, Nat.le_refl _, fun h => h, fun h => h, fun h => h, fun h => h, fun h => h,
    fun h => h⟩

theorem Ages.trans (h : s.Ages s') (k : s'.Ages s'') : s.Ages s'' where
  named := k.named.trans h.named
  issued := Int.le_trans h.issued k.issued
  advanced := Nat.le_trans h.advanced k.advanced
  closed hc := k.closed (h.closed hc)
  attached ha := h.attached (k.attached ha)
  receiving hr := h.receiving (k.receiving hr)
  regular hr := k.regular (h.regular hr)
  vacant hv := k.vacant (h.vacant hv)
  backed hb := k.backed (h.backed hb)

theorem Carries.ages (h : s.Carries s') : s.Ages s' where
  named := h.named
  issued := h.issued
  advanced := h.advanced
  closed := h.closed.mpr
  attached ha := h.attached ▸ ha
  receiving := h.receiving
  regular hr := by rw [h.attached, hr, ne_eq, ne_eq, h.closed]
  vacant hv hc := h.pending.trans (hv (h.closed.mp hc))
  backed := h.backed

theorem ages_pending {pending : List Pending}
    (h : s.status = .closed → s.pending = [] → pending = []) : s.Ages { s with pending } :=
  ⟨rfl, Int.le_refl _, Nat.le_refl _, fun h => h, fun h => h, fun h => h, fun h => h,
    fun hv hc => h hc (hv hc), fun h => h⟩

theorem register_spec (h : s.register e = .ok s') :
    s.status ≠ .closed ∧ s' = { s with pending := s.pending ++ [e] } := by
  unfold register at h
  split at h
  · cases h
  · rename_i hopen
    split at h <;> cases h
    exact ⟨hopen, rfl⟩

theorem fresh_of_register {e' : Pending} (h : s.register e = .ok s')
    (he : e' ∈ s.pending) : e'.id ≠ e.id := by
  unfold register at h
  split at h
  · cases h
  · split at h
    · cases h
    · rename_i hnone
      have hfind : s.findPending? e.id = none := by simpa using hnone
      simpa using List.find?_eq_none.mp hfind e' he

theorem close_spec (h : s.close = some (ts, s')) :
    ts = s.pending.map (·.ticket) ∧ s'.pending = [] ∧ s'.status = .closed ∧
      s'.nextRequestId = s.nextRequestId ∧ s.Ages s' := by
  unfold close at h
  split at h
  · cases h
  · cases h
    refine ⟨rfl, rfl, rfl, rfl, rfl, Int.le_refl _, ?_, fun _ => rfl, ?_, fun h => h, ?_,
      fun _ _ => rfl, fun h => h⟩
    · exact s.status.rank_le_closed
    · simp [Channel.dropSender]
    · simp [Channel.dropSender]

end Session

namespace Board

def Pends (r : SessionRef) (e : Pending) (b : Board) : Prop :=
  ∃ s, b.line r = some s ∧ e ∈ s.pending

def Issued (r : SessionRef) (id : RequestId) (b : Board) : Prop :=
  ∃ s n, b.line r = some s ∧ id = .number n ∧ n < s.nextRequestId

def Closed (r : SessionRef) (b : Board) : Prop := ∃ s, b.line r = some s ∧ s.status = .closed

def Answered (t : Ticket) (m : Message) (b : Board) : Prop :=
  ∃ w, b.waiter t = some w ∧ w.state = .answered m

def Waits (t : Ticket) (b : Board) : Prop := ∃ w, b.waiter t = some w ∧ w.state = .waiting

def Ages (b b' : Board) : Prop := ∀ r s, b.line r = some s → ∃ s', b'.line r = some s' ∧ s.Ages s'

variable {b b' b'' : Board} {r q : SessionRef} {s s' : Session} {e e' : Pending} {t u : Ticket}
  {id : RequestId} {state : WaiterState} {ts : List Ticket} {m : Message} {x : Errand}

theorem Ages.refl (b : Board) : b.Ages b := fun _ s hs => ⟨s, hs, .refl s⟩

theorem Ages.trans (h : b.Ages b') (k : b'.Ages b'') : b.Ages b'' := by
  intro r s hs
  obtain ⟨s', hs', ha⟩ := h r s hs
  obtain ⟨s'', hs'', ha'⟩ := k r s' hs'
  exact ⟨s'', hs'', ha.trans ha'⟩

theorem Issued.mono (h : b.Issued r id) (ha : b.Ages b') : b'.Issued r id := by
  obtain ⟨s, n, hs, hid, hn⟩ := h
  obtain ⟨s', hs', hage⟩ := ha r s hs
  exact ⟨s', n, hs', hid, Int.lt_of_lt_of_le hn hage.issued⟩

theorem Closed.mono (h : b.Closed r) (ha : b.Ages b') : b'.Closed r := by
  obtain ⟨s, hs, hc⟩ := h
  obtain ⟨s', hs', hage⟩ := ha r s hs
  exact ⟨s', hs', hage.closed hc⟩

theorem line_setLine : (b.setLine r s).line q = if q = r then some s else b.line q :=
  Function.update_apply ..

theorem waiter_settle : (b.settle t state).waiter u =
    if u = t then (b.waiter t).map fun w => { w with state } else b.waiter u :=
  Function.update_apply ..

theorem line_settleAll : (b.settleAll ts state).line = b.line := by
  induction ts generalizing b with
  | nil => rfl
  | cons t ts ih => exact ih

theorem handle_settleAll : (b.settleAll ts state).handle = b.handle := by
  induction ts generalizing b with
  | nil => rfl
  | cons t ts ih => exact ih

theorem nextTicket_settleAll : (b.settleAll ts state).nextTicket = b.nextTicket := by
  induction ts generalizing b with
  | nil => rfl
  | cons t ts ih => exact ih

theorem waiter_settleAll : (b.settleAll ts state).waiter u =
    if u ∈ ts then (b.waiter u).map fun w => { w with state } else b.waiter u := by
  induction ts generalizing b with
  | nil => rfl
  | cons t ts ih =>
      have hstep : b.settleAll (t :: ts) state = (b.settle t state).settleAll ts state := rfl
      rw [hstep, ih, waiter_settle]
      by_cases ht : u = t
      · subst ht
        cases b.waiter u <;> simp
      · simp [ht]

theorem ages_setLine (hs : b.line r = some s) (ha : s.Ages s') : b.Ages (b.setLine r s') := by
  intro q sq hq
  rw [line_setLine]
  split
  · rename_i h
    rw [h, hs] at hq
    cases hq
    exact ⟨s', rfl, ha⟩
  · exact ⟨sq, hq, .refl sq⟩

theorem ages_of_line (h : b'.line = b.line) : b.Ages b' := fun r s hs => ⟨s, by rw [h, hs], .refl s⟩

theorem pends_setLine : (b.setLine r s').Pends q e ↔
    if q = r then e ∈ s'.pending else b.Pends q e := by
  unfold Pends
  rw [line_setLine]
  split
  · exact ⟨fun ⟨x, hx, he⟩ => Option.some.inj hx ▸ he, fun he => ⟨s', rfl, he⟩⟩
  · rfl

theorem take_cases (r : SessionRef) (id : RequestId) (state : WaiterState) (b : Board) :
    (b.take r id state = b ∧ ∀ e, b.Pends r e → e.id ≠ id) ∨
    ∃ e s, b.line r = some s ∧ e ∈ s.pending ∧ e.id = id ∧ b.take r id state =
      (b.setLine r { s with pending := s.pending.filter (·.id ≠ id) }).settle e.ticket state := by
  unfold take
  cases hs : b.line r with
  | none => exact .inl ⟨rfl, fun e ⟨s, hs', _⟩ => by simp [hs] at hs'⟩
  | some s =>
      simp only [Option.bind_some, Session.takePending?]
      cases hf : s.findPending? id with
      | none =>
          refine .inl ⟨rfl, fun e ⟨s', hs', he⟩ => ?_⟩
          cases hs.symm.trans hs'
          simpa using List.find?_eq_none.mp hf e he
      | some e =>
          have hid : e.id = id := by simpa using List.find?_some hf
          exact .inr ⟨e, s, rfl, List.mem_of_find?_eq_some hf, hid, rfl⟩

theorem pends_take :
    (b.take r id state).Pends q e ↔ b.Pends q e ∧ ¬ (q = r ∧ e.id = id) := by
  rcases take_cases r id state b with ⟨hb, hnone⟩ | ⟨e', s, hs, -, -, hb⟩
  · rw [hb]
    refine ⟨fun h => ⟨h, ?_⟩, And.left⟩
    rintro ⟨rfl, hid⟩
    exact hnone e h hid
  · rw [hb]
    refine pends_setLine.trans ?_
    split
    · rename_i hq
      subst hq
      have hp : b.Pends q e ↔ e ∈ s.pending :=
        ⟨fun ⟨x, hx, he⟩ => Option.some.inj (hs.symm.trans hx) ▸ he, fun he => ⟨s, hs, he⟩⟩
      simp [hp]
    · rename_i hq
      simp [hq]

theorem waiter_take (b : Board) (r : SessionRef) (id : RequestId) (state : WaiterState)
    (t : Ticket) : (b.take r id state).waiter t = b.waiter t ∨ ∃ e, b.Pends r e ∧ e.id = id ∧
      e.ticket = t ∧
      (b.take r id state).waiter t = (b.waiter t).map fun w => { w with state } := by
  rcases take_cases r id state b with ⟨hb, -⟩ | ⟨e, s, hs, he, hid, hb⟩
  · exact .inl (by rw [hb])
  · rw [hb, waiter_settle]
    split
    · rename_i ht
      exact .inr ⟨e, ⟨s, hs, he⟩, hid, ht.symm, by rw [ht]; rfl⟩
    · exact .inl rfl

theorem handle_take : (b.take r id state).handle = b.handle := by
  rcases take_cases r id state b with ⟨hb, -⟩ | ⟨e, s, -, -, -, hb⟩
  · rw [hb]
  · rw [hb]
    rfl

theorem nextTicket_take : (b.take r id state).nextTicket = b.nextTicket := by
  rcases take_cases r id state b with ⟨hb, -⟩ | ⟨e, s, -, -, -, hb⟩
  · rw [hb]
  · rw [hb]
    rfl

theorem ages_take : b.Ages (b.take r id state) := by
  rcases take_cases r id state b with ⟨hb, -⟩ | ⟨e, s, hs, -, -, hb⟩
  · rw [hb]
    exact .refl b
  · rw [hb]
    exact ages_setLine hs (Session.ages_pending fun _ hempty => by simp [hempty])

theorem ages_resolve : b.Ages (b.resolve r m) := by
  unfold resolve
  cases m.id with
  | none => exact .refl b
  | some id => exact ages_take

theorem Step.ages (h : Step b x b') : b.Ages b' := by
  cases h with
  | carried hc =>
      intro r s hs
      have hr := hc r
      rw [hs] at hr
      obtain ⟨s', hs', hcar⟩ := hr
      exact ⟨s', hs', hcar.ages⟩
  | @asked p r s s' method _ hs hreg =>
      obtain ⟨hopen, rfl⟩ := Session.register_spec hreg
      have hage : s.Ages { s.takeRequestId.2 with
          pending := s.takeRequestId.2.pending ++ [⟨s.takeRequestId.1, method, b.nextTicket⟩] } :=
        Session.carries_takeRequestId.ages.trans (Session.ages_pending fun hc => absurd hc hopen)
      exact ages_setLine (b := b.issue (some p)) hs hage
  | dropped _ => exact ages_take
  | resolved r m => exact ages_resolve
  | closed hs hclose =>
      obtain ⟨-, -, -, -, hage⟩ := Session.close_spec hclose
      exact (ages_setLine hs hage).trans (ages_of_line line_settleAll)
  | registered hs hreg =>
      obtain ⟨hopen, rfl⟩ := Session.register_spec hreg
      exact ages_setLine (b := b.issue none) hs (Session.ages_pending fun hc => absurd hc hopen)
  | withdrawn r id => exact ages_take

theorem Step.line_cases (h : Step b x b') (hs' : b'.line r = some s') :
    (∃ s, b.line r = some s ∧ s.Ages s') ∨ s'.pending = [] ∧
      (s'.outbound.attached = true ↔ s'.status ≠ .closed) ∧ s'.outbound.Backed := by
  cases hl : b.line r with
  | some s =>
      obtain ⟨s₁, hs₁, hage⟩ := h.ages r s hl
      cases hs'.symm.trans hs₁
      exact .inl ⟨s, rfl, hage⟩
  | none =>
      have hset (b₁ : Board) {q : SessionRef} {s s₁ : Session} (hline : b₁.line = b.line)
          (hq : b.line q = some s) (hr : (b₁.setLine q s₁).line r = some s') : False := by
        rw [line_setLine, hline] at hr
        split at hr
        · rename_i h
          simp [← h, hl] at hq
        · simp [hl] at hr
      have htake {q : SessionRef} {id : RequestId} {state : WaiterState}
          (hr : (b.take q id state).line r = some s') : False := by
        rcases take_cases q id state b with ⟨hb, -⟩ | ⟨e, s, hq, -, -, hb⟩
        · simp [hb, hl] at hr
        · rw [hb] at hr
          exact hset b rfl hq hr
      cases h with
      | carried hc =>
          have hr := hc r
          rw [hl] at hr
          exact .inr (hr s' hs')
      | @asked p _ _ _ _ _ hq _ => exact (hset (b.issue (some p)) rfl hq hs').elim
      | dropped _ => exact (htake hs').elim
      | resolved q m =>
          unfold resolve at hs'
          cases hid : m.id with
          | none => simp [hid, hl] at hs'
          | some id =>
              rw [hid] at hs'
              exact (htake hs').elim
      | closed hq _ =>
          rw [line_settleAll] at hs'
          exact (hset b rfl hq hs').elim
      | registered hq _ => exact (hset (b.issue none) rfl hq hs').elim
      | withdrawn q id => exact (htake hs').elim

theorem Path.line_cases {es : List Errand} (h : Path b es b') (hs' : b'.line r = some s') :
    (∃ s, b.line r = some s ∧ s.Ages s') ∨
      (s'.outbound.attached = true ↔ s'.status ≠ .closed) ∧
        (s'.status = .closed → s'.pending = []) := by
  induction h generalizing s' with
  | nil => exact .inl ⟨s', hs', .refl s'⟩
  | snoc _ hstep ih =>
      rcases hstep.line_cases hs' with ⟨s₁, hs₁, hage⟩ | ⟨hpending, hregular, -⟩
      · rcases ih hs₁ with ⟨s, hs, hage'⟩ | ⟨hregular, hvacant⟩
        · exact .inl ⟨s, hs, hage'.trans hage⟩
        · exact .inr ⟨hage.regular hregular, hage.vacant hvacant⟩
      · exact .inr ⟨hregular, fun _ => hpending⟩

theorem Path.ages {es : List Errand} (h : Path b es b') : b.Ages b' := by
  induction h with
  | nil => exact .refl b
  | snoc _ hstep ih => exact ih.trans hstep.ages

end Board

end AgentGateway
