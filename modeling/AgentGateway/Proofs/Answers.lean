import AgentGateway.Proofs.Matched

namespace AgentGateway

open Function (update)

namespace Board

def Retired (r : SessionRef) (id : RequestId) (b : Board) : Prop :=
  b.Issued r id ∧ ∀ e, b.Pends r e → e.id ≠ id

def Spent (t : Ticket) (b : Board) : Prop := ¬ b.Waits t ∧ t < b.nextTicket

def Unheld (t : Ticket) (b : Board) : Prop :=
  (∀ p h, b.handle p = some h → h.ticket ≠ t) ∧ t < b.nextTicket

variable {b b' b₁ : Board} {r : SessionRef} {e e' : Pending} {t t' : Ticket} {id : RequestId}
  {m m' : Message} {x : Errand} {h : Handle} {p : ProcessId} {es : List Errand}

theorem Step.nextTicket_le (hs : Step b x b') : b.nextTicket ≤ b'.nextTicket := by
  have htake {r : SessionRef} {id : RequestId} {state : WaiterState} :
      b.nextTicket ≤ (b.take r id state).nextTicket := Nat.le_of_eq nextTicket_take.symm
  cases hs with
  | carried _ => exact Nat.le_refl _
  | asked _ _ _ => exact Nat.le_succ _
  | dropped _ => exact htake
  | resolved r m =>
      unfold resolve
      cases m.id with
      | none => exact Nat.le_refl _
      | some id => exact htake
  | closed _ _ =>
      rw [nextTicket_settleAll]
      exact Nat.le_refl _
  | registered _ _ => exact Nat.le_succ _
  | withdrawn r id => exact htake

theorem Step.handle_or_fresh (hs : Step b x b') (hp : b'.handle p = some h) : b.handle p = some h ∨
    h.ticket = b.nextTicket ∧ ∀ e, b.Pends h.session e → e.id ≠ h.id := by
  cases hs with
  | carried _ => exact .inl hp
  | asked _ hl hreg =>
      have hp : update b.handle _ _ p = some h := hp
      rw [Function.update_apply] at hp
      split at hp
      · cases hp
        refine .inr ⟨rfl, fun e he => ?_⟩
        obtain ⟨s, hs, he⟩ := he
        cases hl.symm.trans hs
        exact Session.fresh_of_register hreg he
      · exact .inl hp
  | dropped _ =>
      have hp : update b.handle _ none p = some h := hp
      rw [Function.update_apply] at hp
      split at hp
      · cases hp
      · exact .inl hp
  | resolved r m =>
      unfold resolve at hp
      cases hid : m.id with
      | none =>
          rw [hid] at hp
          exact .inl hp
      | some id =>
          rw [hid, Option.elim_some, handle_take] at hp
          exact .inl hp
  | closed _ _ =>
      rw [handle_settleAll] at hp
      exact .inl hp
  | registered _ _ => exact .inl hp
  | withdrawn r id =>
      rw [cancelPending, handle_take] at hp
      exact .inl hp

theorem Step.handle (hs : Step b x b') (hp : b'.handle p = some h) :
    b.handle p = some h ∨ h.ticket = b.nextTicket := (hs.handle_or_fresh hp).imp_right And.left

theorem waits_take {r : SessionRef} {state : WaiterState} (hstate : state ≠ .waiting)
    (hw : (b.take r id state).Waits t) : b.Waits t := by
  obtain ⟨w, hw, hwait⟩ := hw
  rcases waiter_take b r id state t with hsame | ⟨e, -, -, -, hmap⟩
  · exact ⟨w, hsame ▸ hw, hwait⟩
  · rw [hmap, Option.map_eq_some_iff] at hw
    obtain ⟨w', -, rfl⟩ := hw
    exact (hstate hwait).elim

theorem waits_issue {holder : Option ProcessId} (hw : (b.issue holder).Waits t) :
    b.Waits t ∨ t = b.nextTicket := by
  obtain ⟨w, hw, hwait⟩ := hw
  rw [waiter_issue] at hw
  cases hold : b.waiter t with
  | some w' =>
      rw [hold, Option.some_or] at hw
      exact .inl ⟨w', hold, Option.some.inj hw ▸ hwait⟩
  | none =>
      rw [hold, Option.none_or] at hw
      split at hw
      · rename_i ht
        exact .inr ht
      · cases hw

theorem Step.waits (hs : Step b x b') (hw : b'.Waits t) : b.Waits t ∨ t = b.nextTicket := by
  cases hs with
  | carried _ => exact .inl hw
  | asked _ _ _ => exact waits_issue hw
  | @dropped _ h _ =>
      obtain ⟨w, hw, hwait⟩ := hw
      have hw : update (b.cancelPending h.session h.id).waiter h.ticket none t = some w := hw
      rw [Function.update_apply] at hw
      split at hw
      · cases hw
      · exact .inl (waits_take (by simp) ⟨w, hw, hwait⟩)
  | resolved r m =>
      unfold resolve at hw
      cases hid : m.id with
      | none =>
          rw [hid] at hw
          exact .inl hw
      | some id =>
          rw [hid] at hw
          exact .inl (waits_take (by simp) hw)
  | closed _ _ =>
      obtain ⟨w, hw, hwait⟩ := hw
      rw [waiter_settleAll] at hw
      split at hw
      · obtain ⟨w', -, rfl⟩ := Option.map_eq_some_iff.mp hw
        cases hwait
      · exact .inl ⟨w, hw, hwait⟩
  | registered _ _ => exact waits_issue hw
  | withdrawn r id => exact .inl (waits_take (by simp) hw)

theorem Step.pends (hs : Step b x b') (he : b'.Pends r e) :
    b.Pends r e ∨ e.ticket = b.nextTicket ∧ (x ≠ .hosted → ¬ b.Issued r e.id) := by
  cases hs with
  | carried hc => exact .inl ((pends_carried hc).mp he)
  | asked _ hl hreg =>
      obtain ⟨-, rfl⟩ := Session.register_spec hreg
      rcases (pends_asked hl rfl).mp he with he | ⟨rfl, rfl⟩
      · exact .inl he
      · refine .inr ⟨rfl, ?_⟩
        rintro - ⟨s₁, n, hs₁, hid, hn⟩
        cases hl.symm.trans hs₁
        cases hid
        exact Int.lt_irrefl _ hn
  | dropped _ => exact .inl (pends_dropHandle.mp he).1
  | resolved q m => exact .inl (pends_resolve.mp he).1
  | closed hl hclose =>
      obtain ⟨-, hpend, -⟩ := Session.close_spec hclose
      exact .inl ((pends_closed hpend).mp he).1
  | registered hl hreg =>
      obtain ⟨-, rfl⟩ := Session.register_spec hreg
      refine ((pends_asked hl rfl).mp he).imp_right ?_
      rintro ⟨-, rfl⟩
      exact ⟨rfl, fun hx => (hx rfl).elim⟩
  | withdrawn q id => exact .inl (pends_take.mp he).1

theorem answered_take {r : SessionRef} {state : WaiterState}
    (ha : (b.take r id state).Answered t m) :
    b.Answered t m ∨ state = .answered m ∧ ∃ e, b.Pends r e ∧ e.id = id ∧ e.ticket = t := by
  obtain ⟨w, hw, hans⟩ := ha
  rcases waiter_take b r id state t with hsame | ⟨e, he, hid, ht, hmap⟩
  · exact .inl ⟨w, hsame ▸ hw, hans⟩
  · rw [hmap, Option.map_eq_some_iff] at hw
    obtain ⟨w', -, rfl⟩ := hw
    exact .inr ⟨hans, e, he, hid, ht⟩

theorem answered_issue {holder : Option ProcessId} (ha : (b.issue holder).Answered t m) :
    b.Answered t m := by
  obtain ⟨w, hw, hans⟩ := ha
  rw [waiter_issue] at hw
  cases hold : b.waiter t with
  | some w' =>
      rw [hold, Option.some_or] at hw
      exact ⟨w', hold, Option.some.inj hw ▸ hans⟩
  | none =>
      rw [hold, Option.none_or] at hw
      split at hw <;> cases hw
      cases hans

theorem Step.answered (hs : Step b x b') (ha : b'.Answered t m) :
    b.Answered t m ∨
      ∃ r e, x = .arrived r m ∧ m.id = some e.id ∧ e.ticket = t ∧ b.Pends r e := by
  cases hs with
  | carried _ => exact .inl ha
  | asked _ _ _ => exact .inl (answered_issue ha)
  | @dropped _ h _ =>
      obtain ⟨w, hw, hans⟩ := ha
      have hw : update (b.cancelPending h.session h.id).waiter h.ticket none t = some w := hw
      rw [Function.update_apply] at hw
      split at hw
      · cases hw
      · refine (answered_take ⟨w, hw, hans⟩).imp_right ?_
        rintro ⟨hstate, -⟩
        cases hstate
  | resolved r m' =>
      unfold resolve at ha
      cases hid : m'.id with
      | none =>
          rw [hid] at ha
          exact .inl ha
      | some id =>
          rw [hid] at ha
          refine (answered_take ha).imp_right ?_
          rintro ⟨hstate, e, he, rfl, ht⟩
          cases hstate
          exact ⟨r, e, rfl, hid, ht, he⟩
  | closed _ _ =>
      obtain ⟨w, hw, hans⟩ := ha
      rw [waiter_settleAll] at hw
      split at hw
      · obtain ⟨w', -, rfl⟩ := Option.map_eq_some_iff.mp hw
        cases hans
      · exact .inl ⟨w, hw, hans⟩
  | registered _ _ => exact .inl (answered_issue ha)
  | withdrawn r id =>
      refine .inl ((answered_take ha).resolve_right ?_)
      rintro ⟨hstate, -⟩
      cases hstate

theorem Step.stays_or_leaves (hs : Step b x b') (hx : x ≠ .hosted) (he : b.Pends r e) :
    b'.Pends r e ∨ (∃ m, x = .arrived r m ∧ m.id = some e.id) ∨
      (∃ p h, b.handle p = some h ∧ b' = { b.dropHandle h with handle := update b.handle p none } ∧
        h.session = r ∧ h.id = e.id) ∨ b'.Closed r := by
  cases hs with
  | carried hc => exact .inl ((pends_carried hc).mpr he)
  | asked _ hl hreg =>
      obtain ⟨-, rfl⟩ := Session.register_spec hreg
      exact .inl ((pends_asked hl rfl).mpr (.inl he))
  | @dropped p h hp =>
      by_cases hown : r = h.session ∧ e.id = h.id
      · exact .inr (.inr (.inl ⟨p, h, hp, rfl, hown.1.symm, hown.2.symm⟩))
      · exact .inl (pends_dropHandle.mpr ⟨he, hown⟩)
  | resolved q m =>
      by_cases hown : r = q ∧ m.id = some e.id
      · exact .inr (.inl ⟨m, by rw [hown.1], hown.2⟩)
      · exact .inl (pends_resolve.mpr ⟨he, hown⟩)
  | @closed q s s' ts hl hclose =>
      obtain ⟨-, hpend, hstat, -⟩ := Session.close_spec hclose
      by_cases hr : r = q
      · refine .inr (.inr (.inr ⟨s', ?_, hstat⟩))
        rw [line_settleAll, line_setLine, if_pos hr]
      · exact .inl ((pends_closed hpend).mpr ⟨he, hr⟩)
  | registered _ _ | withdrawn _ _ => exact (hx rfl).elim

theorem Step.stays (hs : Step b x b') (hx : x ≠ .hosted) (hb : b.Matched) (he : b.Pends r e) :
    b'.Pends r e ∨ (∃ m, x = .arrived r m ∧ m.id = some e.id) ∨ b'.Unheld e.ticket ∨
      b'.Closed r := by
  have hnext := hs.nextTicket_le
  refine (hs.stays_or_leaves hx he).imp_right (Or.imp_right (Or.imp_left ?_))
  rintro ⟨p, h, hp, rfl, rfl, hid⟩
  refine ⟨fun q h' hq ht => ?_, Nat.lt_of_lt_of_le (hb.pending_lt he) hnext⟩
  have hq : update b.handle p none q = some h' := hq
  rw [Function.update_apply] at hq
  split at hq
  · cases hq
  · rename_i hne
    have htick : e.ticket = h.ticket := hb.own hp he hid.symm
    exact hne (hb.single q p h' h hq hp (ht.trans htick))

theorem Step.retires (hs : Step b (.arrived r m) b') (hid : m.id = some id)
    (hi : b.Issued r id) : b'.Retired r id := by
  have hage := hs.ages
  cases hs with
  | resolved =>
      refine ⟨hi.mono hage, fun e he heq => ?_⟩
      exact (pends_resolve.mp he).2 ⟨rfl, by rw [hid, heq]⟩

theorem Step.left (hs : Step b x b') (hx : x ≠ .hosted) (he : b.Pends r e)
    (hgone : ¬ b'.Pends r e) (he' : b'.Pends r e') : e'.id ≠ e.id := by
  cases hs with
  | carried hc => exact (hgone ((pends_carried hc).mpr he)).elim
  | @asked p q s s' method _ hl hreg =>
      obtain ⟨-, rfl⟩ := Session.register_spec hreg
      exact (hgone ((pends_asked hl rfl).mpr (.inl he))).elim
  | @dropped p h _ =>
      have hown : r = h.session ∧ e.id = h.id := by
        by_contra hne
        exact hgone (pends_dropHandle.mpr ⟨he, hne⟩)
      exact fun hid => (pends_dropHandle.mp he').2 ⟨hown.1, hid.trans hown.2⟩
  | resolved q m =>
      have hown : r = q ∧ m.id = some e.id := by
        by_contra hne
        exact hgone (pends_resolve.mpr ⟨he, hne⟩)
      exact fun hid => (pends_resolve.mp he').2 ⟨hown.1, hid ▸ hown.2⟩
  | closed hl hclose =>
      obtain ⟨-, hpend, -⟩ := Session.close_spec hclose
      exact (hgone ((pends_closed hpend).mpr ⟨he, ((pends_closed hpend).mp he').2⟩)).elim
  | registered _ _ | withdrawn _ _ => exact (hx rfl).elim

theorem Retired.step (h : b.Retired r id) (hs : Step b x b') (hx : x ≠ .hosted) :
    b'.Retired r id := by
  refine ⟨h.1.mono hs.ages, fun e he heq => ?_⟩
  rcases hs.pends he with hold | ⟨-, hnew⟩
  · exact h.2 e hold heq
  · exact hnew hx (heq ▸ h.1)

theorem Spent.step (h : b.Spent t) (hs : Step b x b') : b'.Spent t := by
  refine ⟨fun hw => ?_, Nat.lt_of_lt_of_le h.2 hs.nextTicket_le⟩
  rcases hs.waits hw with hold | hnew
  · exact h.1 hold
  · exact absurd h.2 (hnew ▸ Nat.lt_irrefl _)

theorem Unheld.step (h : b.Unheld t) (hs : Step b x b') : b'.Unheld t := by
  refine ⟨fun p k hp ht => ?_, Nat.lt_of_lt_of_le h.2 hs.nextTicket_le⟩
  rcases hs.handle hp with hold | hnew
  · exact h.1 p k hold ht
  · exact absurd h.2 (by rw [← ht, hnew]; exact Nat.lt_irrefl _)

namespace Path

theorem keeps {P : Board → Prop} (hp : Path b es b') (hx : .hosted ∉ es) (h : P b)
    (hstep : ∀ b x b', P b → Step b x b' → x ≠ .hosted → P b') : P b' := by
  induction hp with
  | nil => exact h
  | snoc _ hs ih =>
      simp only [List.mem_append, List.mem_singleton, not_or] at hx
      exact hstep _ _ _ (ih hx.1) hs (Ne.symm hx.2)

theorem nextTicket_le (hp : Path b es b') : b.nextTicket ≤ b'.nextTicket := by
  induction hp with
  | nil => exact Nat.le_refl _
  | snoc _ hs ih => exact Nat.le_trans ih hs.nextTicket_le

end Path

theorem Retired.path (h : b.Retired r id) (hp : Path b es b') (hx : .hosted ∉ es) :
    b'.Retired r id := hp.keeps hx h fun _ _ _ h hs hx => h.step hs hx

theorem Spent.path (h : b.Spent t) (hp : Path b es b') (hx : .hosted ∉ es) : b'.Spent t :=
  hp.keeps hx h fun _ _ _ h hs _ => h.step hs

theorem Unheld.path (h : b.Unheld t) (hp : Path b es b') (hx : .hosted ∉ es) : b'.Unheld t :=
  hp.keeps hx h fun _ _ _ h hs _ => h.step hs

theorem Path.handle (hp : Path b es b') (hh : b'.handle p = some h) :
    b.handle p = some h ∨ b.nextTicket ≤ h.ticket := by
  induction hp with
  | nil => exact .inl hh
  | snoc hpath hs ih =>
      rcases hs.handle hh with hold | hnew
      · exact ih hold
      · exact .inr (hnew ▸ hpath.nextTicket_le)

namespace Matched

theorem answered (hb : b.Matched) (hp : Path b es b') (hx : .hosted ∉ es) (ha : b'.Answered t m) :
    b.Answered t m ∨ ∃ r id, (r, m) ∈ es.filterMap Errand.arrival? ∧ m.id = some id ∧
      ¬ b.Retired r id ∧ ¬ b.Spent t ∧
      ∀ p h, b'.handle p = some h → h.ticket = t → h.session = r ∧ h.id = id := by
  induction hp with
  | nil => exact .inl ha
  | @snoc es b₁ b₂ x hpath hs ih =>
      simp only [List.mem_append, List.mem_singleton, not_or] at hx
      have hb₁ := hb.path hpath hx.1
      have hold {p : ProcessId} {h : Handle} (hh : b₂.handle p = some h)
          (hlt : h.ticket < b₁.nextTicket) : b₁.handle p = some h :=
        (hs.handle hh).resolve_right (Nat.ne_of_lt hlt)
      rcases hs.answered ha with ha₁ | ⟨r, e, rfl, hid, rfl, he⟩
      · obtain ⟨w, hw, -⟩ := id ha₁
        refine (ih hx.1 ha₁).imp_right ?_
        rintro ⟨r, id, hmem, hid, hret, hspent, hheld⟩
        refine ⟨r, id, by simp [hmem], hid, hret, hspent, fun p h hh ht => ?_⟩
        exact hheld p h (hold hh (ht ▸ hb₁.waiter_lt t w hw)) ht
      · refine .inr ⟨r, e.id, by simp [Errand.arrival?], hid, fun hret => ?_, fun hspent => ?_,
          fun p h hh ht => ?_⟩
        · exact (hret.path hpath hx.1).2 e he rfl
        · exact (hspent.path hpath hx.1).1 (hb₁.waits r e he)
        · obtain ⟨q, hq⟩ := hb₁.held r e he
          have hh₁ := hold hh (ht ▸ hb₁.pending_lt he)
          obtain rfl := hb₁.single p q h _ hh₁ hq ht
          obtain rfl := Option.some.inj (hh₁.symm.trans hq)
          exact ⟨rfl, rfl⟩

theorem answered_once (hb : b.Matched) (hp : Path b es b') (hx : .hosted ∉ es)
    (hone : (es.filterMap Errand.arrival?).length ≤ 1) (hn : ¬ b.Answered t m)
    (hn' : ¬ b.Answered t' m') (ha : b'.Answered t m) (ha' : b'.Answered t' m') : t = t' := by
  induction hp with
  | nil => exact (hn ha).elim
  | @snoc es b₁ b₂ x hpath hs ih =>
      simp only [List.mem_append, List.mem_singleton, not_or] at hx
      rw [List.filterMap_append, List.length_append] at hone
      have hb₁ := hb.path hpath hx.1
      -- nothing else comes in on the way when something comes in at the end
      have hno {t : Ticket} {m m' : Message} {r : SessionRef} (hn : ¬ b.Answered t m)
          (hlast : x = .arrived r m') : ¬ b₁.Answered t m := by
        intro h
        obtain ⟨r', id, hmem, -⟩ := (hb.answered hpath hx.1 h).resolve_left hn
        have hpos := List.length_pos_of_mem hmem
        have hlen : ([x].filterMap Errand.arrival?).length = 1 := by rw [hlast]; rfl
        omega
      rcases hs.answered ha with h₁ | ⟨r, e, hx₁, hid, rfl, he⟩ <;>
        rcases hs.answered ha' with h₂ | ⟨r', e', hx₂, hid', rfl, he'⟩
      · exact ih hx.1 (by omega) h₁ h₂
      · exact (hno hn hx₂ h₁).elim
      · exact (hno hn' hx₁ h₂).elim
      · cases hx₁.symm.trans hx₂
        exact hb₁.same_id he he' (Option.some.inj (hid.symm.trans hid'))

theorem stays (hb : b.Matched) (hp : Path b es b') (hx : .hosted ∉ es) (he : b.Pends r e) :
    b'.Pends r e ∨ (∃ m, (r, m) ∈ es.filterMap Errand.arrival? ∧ m.id = some e.id) ∨
      b'.Unheld e.ticket ∨ b'.Closed r := by
  induction hp with
  | nil => exact .inl he
  | @snoc es b₁ b₂ x hpath hs ih =>
      simp only [List.mem_append, List.mem_singleton, not_or] at hx
      rcases ih hx.1 with h | ⟨m, hmem, hid⟩ | h | h
      · rcases hs.stays (Ne.symm hx.2) (hb.path hpath hx.1) h with h | ⟨m, rfl, hid⟩ | h | h
        · exact .inl h
        · exact .inr (.inl ⟨m, by simp [Errand.arrival?], hid⟩)
        · exact .inr (.inr (.inl h))
        · exact .inr (.inr (.inr h))
      · exact .inr (.inl ⟨m, by simp [hmem], hid⟩)
      · exact .inr (.inr (.inl (h.step hs)))
      · exact .inr (.inr (.inr (h.mono hs.ages)))

theorem left (hb : b.Matched) (hp : Path b es b') (hx : .hosted ∉ es) (he : b.Pends r e)
    (hgone : ¬ b'.Pends r e) : b'.Retired r e.id := by
  induction hp with
  | nil => exact (hgone he).elim
  | @snoc es b₁ b₂ x hpath hs ih =>
      simp only [List.mem_append, List.mem_singleton, not_or] at hx
      by_cases h₁ : b₁.Pends r e
      · refine ⟨(hb.pending_issued he).mono (hpath.snoc hs).ages, fun e' he' => ?_⟩
        exact hs.left (Ne.symm hx.2) h₁ hgone he'
      · exact (ih hx.1 h₁).step hs (Ne.symm hx.2)

end Matched

theorem Path.retires (hp : Path b es b') (hx : .hosted ∉ es) (hi : b.Issued r id)
    (hmem : (r, m) ∈ es.filterMap Errand.arrival?) (hid : m.id = some id) : b'.Retired r id := by
  induction hp with
  | nil => cases hmem
  | @snoc es b₁ b₂ x hpath hs ih =>
      simp only [List.mem_append, List.mem_singleton, not_or] at hx
      rw [List.filterMap_append, List.mem_append] at hmem
      rcases hmem with hmem | hmem
      · exact (ih hx.1 hmem).step hs (Ne.symm hx.2)
      · cases x with
        | arrived r' m' =>
            obtain ⟨rfl, rfl⟩ : r = r' ∧ m = m' := by simpa [Errand.arrival?] using hmem
            exact hs.retires hid (hi.mono hpath.ages)
        | quiet | hosted => simp [Errand.arrival?] at hmem

end Board

end AgentGateway
