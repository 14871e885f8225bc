import AgentGateway.Proofs.Origin
import AgentGateway.Proofs.Tables
/-!
Letting go of the handles of requests. A handle comes with an entry in the table of its session. When
it is let go, what waits under its id is withdrawn, and that is the entry of somebody else if the id
has been registered again since the own one has left.
-/

namespace AgentGateway

open Gateway

namespace Moment

def TakesUp (p : ProcessId) (h : Handle) (m : Moment) : Prop :=
  m.before.held? p ≠ some h ∧ m.after.held? p = some h

def LetsGo (p : ProcessId) (h : Handle) (m : Moment) : Prop :=
  m.before.held? p = some h ∧ m.after.held? p ≠ some h

def FailsAtOnce (p : ProcessId) (m : Moment) : Prop :=
  (∃ c, (m.before.process? p).bind Process.call? = some c ∧ c.stage = .start) ∧
    ∃ e, (m.after.process? p).bind Process.result? = some (.error e)

inductive Clears (r : SessionRef) (id : RequestId) (m : Moment) : Prop
  | arrived {msg : Message} : m.arrival? = some (r, msg) → msg.id = some id → Clears r id m
  | cancelled : m.act = .cancelPending r id → Clears r id m
  | letGo {p : ProcessId} {h : Handle} :
      m.LetsGo p h → h.session = r → h.id = id → Clears r id m
  | closed : ¬ m.before.Closed r → m.after.Closed r → Clears r id m

end Moment

/-- What holds of requests and their handles in what has happened to a gateway, the host included. -/
structure LettingGo (ms : List Moment) : Prop where
  refused : ∀ m ∈ ms, ∀ p, m.FailsAtOnce p → ∀ r e, m.after.Pends r e ↔ m.before.Pends r e
  takenUp : ∀ m ∈ ms, ∀ p h, m.TakesUp p h → ∃ method,
    (∀ e, m.before.Pends h.session e → e.id ≠ h.id) ∧
    ∀ r e, m.after.Pends r e ↔ m.before.Pends r e ∨ r = h.session ∧ e = ⟨h.id, method, h.ticket⟩
  alone : ∀ m ∈ ms, ∀ r e e', m.before.Pends r e → m.before.Pends r e' → e.id = e'.id → e = e'
  letGo : ∀ m ∈ ms, ∀ p h, m.LetsGo p h →
    ∀ r e, m.after.Pends r e ↔ m.before.Pends r e ∧ ¬ (r = h.session ∧ e.id = h.id)
  /-- After it, everything waits that has waited before the request, unless others have changed
  that. -/
  restored : ∀ past m interim m' after p h, ms = past ++ m :: (interim ++ m' :: after) →
    m.TakesUp p h → m'.LetsGo p h → ∀ r e,
      (∀ n ∈ interim, n.act ≠ .control p → (n.after.Pends r e ↔ n.before.Pends r e)) →
      (m'.after.Pends r e ↔ m.before.Pends r e)
  registered : ∀ m ∈ ms, ∀ r id method, m.act = .register r id method →
    (∀ e, m.before.Pends r e → e.id ≠ id) ∧
    ∀ q e, m.after.Pends q e ↔ m.before.Pends q e ∨ q = r ∧ e = ⟨id, method, m.before.nextTicket⟩
  stays : ∀ m ∈ ms, ∀ r e, m.before.Pends r e → (m.after.Pends r e ↔ ¬ m.Clears r e.id)
  /-- What is withdrawn with a handle is the entry of somebody else exactly if the own one has been
  taken out of the table, the host has then registered the id again, and that entry has not been
  taken out since. -/
  displaces : ∀ before m after p h, ms = before ++ m :: after → m.LetsGo p h →
    ((∃ e, m.before.Pends h.session e ∧ e.id = h.id ∧ e.ticket ≠ h.ticket) ↔
      ∃ past i interim j since method, before = past ++ i :: (interim ++ j :: since) ∧
        i.before.held? p = some h ∧ i.Clears h.session h.id ∧
        j.act = .register h.session h.id method ∧ ∀ n ∈ since, ¬ n.Clears h.session h.id)
  /-- The next response that comes in under the id of what waits is handed to whoever waits,
  exactly if it has not been taken out of its table before. -/
  resolved : ∀ past m interim m' after r e msg, ms = past ++ m :: (interim ++ m' :: after) →
    m.after.Pends r e → m'.arrival? = some (r, msg) → msg.id = some e.id →
    (∀ n ∈ interim, ∀ msg', n.arrival? = some (r, msg') → msg'.id ≠ some e.id) →
    (m'.after.Answered e.ticket msg ↔ ∀ n ∈ interim, ¬ n.Clears r e.id)

namespace Gateway

variable {g g' g₁ : Gateway} {p : ProcessId} {r q : SessionRef} {s s' : Session} {e e' : Pending}
  {id : RequestId} {method : String} {h : Handle} {a : Act} {m msg : Message} {sessionId : String}
  {H : ProcessId → Option Handle}

theorem pends_boardWith : (g.boardWith H).Pends r e ↔ g.Pends r e := .rfl

theorem pends_cancelPending :
    (g.cancelPending r id).2.Pends q e ↔ g.Pends q e ∧ ¬ (q = r ∧ e.id = id) := by
  rw [← pends_boardWith (H := fun q => g.held? q), boardWith_cancelPending, Board.cancelPending,
    Board.pends_take, pends_boardWith]

theorem pends_register (hstep : g.perform (.register r id method) = some g') :
    (∀ e, g.Pends r e → e.id ≠ id) ∧
      ∀ q e, g'.Pends q e ↔ g.Pends q e ∨ q = r ∧ e = ⟨id, method, g.nextTicket⟩ := by
  obtain ⟨s, s', hs, hreg, hboard⟩ := board_register hstep
  obtain ⟨-, hs'⟩ := Session.register_spec hreg
  constructor
  · rintro e ⟨s₁, hs₁, he⟩
    cases hs.symm.trans hs₁
    exact Session.fresh_of_register hreg he
  · intro q e
    have hpends : g'.board.Pends q e ↔ g.Pends q e ∨ q = r ∧ e = ⟨id, method, g.nextTicket⟩ := by
      rw [hboard]
      exact Board.pends_asked (b := g.board) hs (by rw [hs'])
    exact hpends

theorem handle_accepted (hacc : g.accepted? sessionId m = some (r, msg)) :
    ∃ g₁, Carried g g₁ ∧ (g.handle sessionId m).2 = (g₁.resolve r msg).2 := by
  unfold accepted? at hacc
  cases hget : g.get sessionId with
  | error e => simp [hget] at hacc
  | ok y =>
      obtain ⟨r', s⟩ := y
      have hv : Carried g (g.validate r' s m).2 := carried_validate (session?_of_get hget)
      rw [handle, hget]
      rw [hget] at hacc
      dsimp only at hacc ⊢
      generalize g.validate r' s m = y at hacc hv
      obtain ⟨result, g₁⟩ := y
      split at hacc
      · rename_i hvalid hmethod
        cases hacc
        cases hvalid
        exact ⟨g₁, hv, by simp only [handleValid, hmethod]⟩
      · cases hacc

theorem board_of_arrival (hstep : g.perform a = some g')
    (harr : Moment.arrival? ⟨g, a, g'⟩ = some (r, msg)) :
    ∃ g₁, Carried g g₁ ∧ g'.boardWith H = (g₁.boardWith H).resolve r msg := by
  cases a with
  | resolve q m =>
      cases harr
      cases hstep
      exact ⟨g, carried_of_desk rfl, boardWith_resolve⟩
  | control q =>
      have harr : g.response? q = some (r, msg) := harr
      obtain ⟨⟨sessionId, m⟩, hin, hacc⟩ := Option.bind_eq_some_iff.mp harr
      obtain ⟨x, hx, hin⟩ := Option.bind_eq_some_iff.mp hin
      obtain ⟨y, -, rfl⟩ := of_incoming hx hin hstep
      obtain ⟨g₁, hc, hhandle⟩ := handle_accepted hacc
      refine ⟨g₁, hc, ?_⟩
      rw [boardWith_of_desk desk_setProcess, hhandle, boardWith_resolve]
  | _ => cases harr

theorem registered_or_unissued (hn : g.Numbered) (hstep : g.perform a = some g')
    (hnew : ¬ g.Pends r e) (he : g'.Pends r e) :
    a = .register r e.id e.method ∨ ¬ g.board.Issued r e.id := by
  by_cases ha : a.IsHosted
  · cases a with
    | register q id method =>
        rcases ((pends_register hstep).2 r e).mp he with hold | ⟨rfl, rfl⟩
        · exact absurd hold hnew
        · exact .inl rfl
    | cancelPending q id =>
        cases hstep
        exact absurd (pends_cancelPending.mp he).1 hnew
    | _ => exact ha.elim
  · obtain ⟨es, hpath, -, hes⟩ := posted_perform hn hstep
    exact .inr ((hpath.pends_or_unissued (hes ha) he).resolve_left hnew)

end Gateway

section Run

variable {g₀ g₁ g₂ g g' : Gateway} {ms ns : List Moment} {a : Act} {p : ProcessId} {h : Handle}
  {r : SessionRef} {e : Pending}

theorem Run.stays_iff_step (h₀ : g₀.IsNew) (hr : Run g₀ ms g) (hstep : g.perform a = some g')
    (he : g.Pends r e) : g'.Pends r e ↔ ¬ Moment.Clears r e.id ⟨g, a, g'⟩ := by
  have hlent := hr.lent h₀
  have hlt := hlent.entry_lt r e he
  obtain ⟨es, hpath, harr, hes⟩ := posted_perform (hr.numbered h₀.numbered) hstep
  have hmem {msg : Message} : (r, msg) ∈ es.filterMap Errand.arrival? ↔
      Moment.arrival? ⟨g, a, g'⟩ = some (r, msg) := by rw [harr, Option.mem_toList]
  constructor
  · rintro he' (⟨hcame, hid⟩ | hcancel | ⟨hgo, rfl, hid⟩ | ⟨-, hclosed⟩)
    · exact hpath.gone_of_arrival hlt (hmem.mpr hcame) hid he'
    · obtain rfl : a = .cancelPending r e.id := hcancel
      cases hstep
      exact (pends_cancelPending.mp he').2 ⟨rfl, rfl⟩
    · exact hpath.gone_of_dropped hgo.1 hgo.2 hlt hid.symm he'
    · exact ((hr.snoc hstep).kept h₀).unclosed r e he' hclosed
  · intro hnot
    by_cases ha : a.IsHosted
    · cases a with
      | register q id method => exact ((pends_register hstep).2 r e).mpr (.inl he)
      | cancelPending q id =>
          cases hstep
          refine pends_cancelPending.mpr ⟨he, ?_⟩
          rintro ⟨rfl, rfl⟩
          exact hnot (.cancelled rfl)
      | _ => exact ha.elim
    · rcases hpath.stays_or_leaves hlent (hes ha) he with
        he' | ⟨msg, hcame, hid⟩ | ⟨p, h, hh, hfree, hsession, hid⟩ | hclosed
      · exact he'
      · exact (hnot (.arrived (hmem.mp hcame) hid)).elim
      · exact (hnot (.letGo ⟨hh, hfree⟩ hsession hid)).elim
      · exact (hnot (.closed ((hr.kept h₀).unclosed r e he) hclosed)).elim

theorem Run.stays_iff (h₀ : g₀.IsNew) (hr : Run g₀ ms g₁) (hrest : Run g₁ ns g₂)
    (he : g₁.Pends r e) : g₂.Pends r e ↔ ∀ n ∈ ns, ¬ n.Clears r e.id := by
  have hlt := (hr.lent h₀).entry_lt r e he
  have hn := hr.numbered h₀.numbered
  induction hrest with
  | nil => simpa using he
  | snoc hrun hstep ih =>
      obtain ⟨es₁, hpath₁, -⟩ := hrun.boards hn
      obtain ⟨es₂, hpath₂, -⟩ := posted_perform (hrun.numbered hn) hstep
      have hlt₁ := Nat.lt_of_lt_of_le hlt hpath₁.nextTicket_le
      rw [List.forall_mem_append, List.forall_mem_singleton]
      refine Iff.trans ?_ (and_congr_left' ih)
      constructor
      · intro he₂
        have he₁ := hpath₂.pends he₂ hlt₁
        exact ⟨he₁, ((hr.append hrun).stays_iff_step h₀ hstep he₁).mp he₂⟩
      · rintro ⟨he₁, hnot⟩
        exact ((hr.append hrun).stays_iff_step h₀ hstep he₁).mpr hnot

theorem Moment.TakesUp.pends (hn : g.Numbered) (hstep : g.perform a = some g')
    (ht : Moment.TakesUp p h ⟨g, a, g'⟩) : ∃ method,
      (∀ e, g.Pends h.session e → e.id ≠ h.id) ∧
      ∀ r e, g'.Pends r e ↔ g.Pends r e ∨ r = h.session ∧ e = ⟨h.id, method, h.ticket⟩ := by
  have hplied : Board.Plied p g.board g'.board :=
    plied_perform hn hstep fun heq => ht.1 (heq ▸ ht.2)
  exact hplied.pends_asked ht.1 ht.2

theorem Moment.LetsGo.pends (hn : g.Numbered) (hstep : g.perform a = some g')
    (hgo : Moment.LetsGo p h ⟨g, a, g'⟩) :
    g'.Pends r e ↔ g.Pends r e ∧ ¬ (r = h.session ∧ e.id = h.id) := by
  have hplied : Board.Plied p g.board g'.board :=
    plied_perform hn hstep fun heq => hgo.2 (heq ▸ hgo.1)
  exact hplied.pends_dropped hgo.1 hgo.2

theorem pends_of_control (hn : g.Numbered) (hstep : g.perform (.control p) = some g')
    (hh : g.held? p = some h) (hh' : g'.held? p = some h) : g'.Pends r e ↔ g.Pends r e := by
  have hcall : (g.process? p).bind Process.call? ≠ none := by
    obtain ⟨x, hx, hhx⟩ := Option.bind_eq_some_iff.mp hh
    obtain ⟨c, hc, -⟩ := Option.bind_eq_some_iff.mp hhx
    simp [hx, hc]
  have hplied := (plied_control hn hstep).resolve_right fun hnone => hcall hnone.1
  exact hplied.pends_same (hh'.trans hh.symm)

theorem Moment.FailsAtOnce.pends (hn : g.Numbered) (hstep : g.perform a = some g')
    (hf : Moment.FailsAtOnce p ⟨g, a, g'⟩) : g'.Pends r e ↔ g.Pends r e := by
  obtain ⟨⟨c, hc, hs⟩, error, hres⟩ := hf
  obtain ⟨y, hy, hres⟩ := Option.bind_eq_some_iff.mp hres
  obtain ⟨c', hyc, hdone⟩ := Option.bind_eq_some_iff.mp hres
  have hdone : c'.stage = .done (.error error) := by
    split at hdone <;> cases hdone
    assumption
  obtain ⟨x, hx, hxc⟩ := Option.bind_eq_some_iff.mp hc
  have hnone : g.held? p = none := by
    rw [held?_eq hx, Process.handle?, hxc, Option.bind_some, Call.handle?, hs]
  have hnone' : g'.held? p = none := by
    rw [held?_eq hy, Process.handle?, hyc, Option.bind_some, Call.handle?, hdone]
  by_cases ha : a = .control p
  · subst ha
    have hplied := (plied_control hn hstep).resolve_right fun hfree => by
      cases hc.symm.trans hfree.1
    exact hplied.pends_same (hnone'.trans hnone.symm)
  · -- nobody else ends a request
    rcases kindred_perform hn hstep ha hy with ⟨x', hx', hk⟩ | ⟨hlt, -⟩
    · cases hx.symm.trans hx'
      cases hxc.symm.trans (hk.call?.symm.trans hyc)
      cases hs.symm.trans hdone
    · simp [hn p hlt] at hx

theorem Run.held (hn : g₁.Numbered) (hr : Run g₁ ns g₂) (hlt : h.ticket < g₁.nextTicket)
    (hh : g₂.held? p = some h) : g₁.held? p = some h := by
  obtain ⟨es, hpath, -⟩ := hr.boards hn
  exact (hpath.handle hh).resolve_right (Nat.not_le.mpr hlt)

theorem Run.unchanged (hn : g₁.Numbered) (hr : Run g₁ ns g₂) (hlt : h.ticket < g₁.nextTicket)
    (hh : g₂.held? p = some h)
    (hothers : ∀ n ∈ ns, n.act ≠ .control p → (n.after.Pends r e ↔ n.before.Pends r e)) :
    g₂.Pends r e ↔ g₁.Pends r e := by
  induction hr with
  | nil => exact .rfl
  | @snoc ns g a g' hrun hstep ih =>
      have hn' := hrun.numbered hn
      obtain ⟨es, hpath, -⟩ := hrun.boards hn
      have hlt' := Nat.lt_of_lt_of_le hlt hpath.nextTicket_le
      have hheld : g.held? p = some h := (Run.single hstep).held hn' hlt' hh
      have hlast : g'.Pends r e ↔ g.Pends r e := by
        by_cases ha : a = .control p
        · subst ha
          exact pends_of_control hn' hstep hheld hh
        · exact hothers ⟨g, a, g'⟩ (by simp) ha
      exact hlast.trans (ih hheld fun n hmem => hothers n (by simp [hmem]))

theorem Run.displaced (h₀ : g₀.IsNew) (hr : Run g₀ ms g) (hh : g.held? p = some h)
    (he : g.Pends h.session e) (hid : e.id = h.id) (hne : e.ticket ≠ h.ticket) :
    ∃ past j since method, ms = past ++ j :: since ∧ j.before.held? p = some h ∧
      j.act = .register h.session h.id method ∧
      (∀ e, j.before.Pends h.session e → e.id ≠ h.id) ∧
      ∀ n ∈ since, ¬ n.Clears h.session h.id := by
  induction hr with
  | nil =>
      obtain ⟨settings, tools, epoch, rfl⟩ := h₀
      cases hh
  | @snoc ms g a g' hrun hstep ih =>
      have hn := hrun.numbered h₀.numbered
      by_cases hheld : g.held? p = some h
      · by_cases hold : g.Pends h.session e
        · obtain ⟨past, j, since, method, rfl, hj, hact, hfree, hsince⟩ := ih hheld hold
          have hnot := (hrun.stays_iff_step h₀ hstep hold).mp he
          rw [hid] at hnot
          refine ⟨past, j, since ++ [⟨g, a, g'⟩], method, by simp, hj, hact, hfree, ?_⟩
          rw [List.forall_mem_append, List.forall_mem_singleton]
          exact ⟨hsince, hnot⟩
        · rcases registered_or_unissued hn hstep hold he with rfl | hnew
          · rw [hid] at hstep
            exact ⟨ms, _, [], e.method, rfl, hheld, by rw [hid], (pends_register hstep).1, by simp⟩
          · have hissued : g.board.Issued h.session h.id :=
              (hrun.ticketed h₀).issued p h hheld
            exact absurd (hid ▸ hissued) hnew
      · obtain ⟨method, hfresh, hpends⟩ := Moment.TakesUp.pends hn hstep ⟨hheld, hh⟩
        rcases (hpends _ e).mp he with hold | ⟨-, rfl⟩
        · exact absurd hid (hfresh e hold)
        · exact absurd rfl hne

theorem Run.cleared (h₀ : g₀.IsNew) (hr : Run g₀ ms g) (hh : g.held? p = some h)
    (hgone : ∀ e, g.Pends h.session e → e.ticket ≠ h.ticket) :
    ∃ past i since, ms = past ++ i :: since ∧ i.before.held? p = some h ∧
      i.Clears h.session h.id := by
  induction hr with
  | nil =>
      obtain ⟨settings, tools, epoch, rfl⟩ := h₀
      cases hh
  | @snoc ms g a g' hrun hstep ih =>
      by_cases hheld : g.held? p = some h
      · by_cases hown : ∃ e, g.Pends h.session e ∧ e.ticket = h.ticket
        · obtain ⟨e, he, ht⟩ := hown
          obtain ⟨-, hid⟩ := (hrun.lent h₀).own p h _ e hheld he ht
          have hclears : Moment.Clears h.session e.id ⟨g, a, g'⟩ := by
            by_contra hnot
            exact hgone e ((hrun.stays_iff_step h₀ hstep he).mpr hnot) ht
          exact ⟨ms, _, [], rfl, hheld, hid ▸ hclears⟩
        · obtain ⟨past, i, since, rfl, hrest⟩ :=
            ih hheld fun e he ht => hown ⟨e, he, ht⟩
          exact ⟨past, i, since ++ [⟨g, a, g'⟩], by simp, hrest⟩
      · obtain ⟨method, -, hpends⟩ :=
          Moment.TakesUp.pends (hrun.numbered h₀.numbered) hstep ⟨hheld, hh⟩
        exact absurd rfl (hgone _ ((hpends _ _).mpr (.inr ⟨rfl, rfl⟩)))

variable {msg : Message}

theorem Run.answers (h₀ : g₀.IsNew) (hr : Run g₀ ms g) (hstep : g.perform a = some g')
    (harr : Moment.arrival? ⟨g, a, g'⟩ = some (r, msg)) (hid : msg.id = some e.id)
    (he : g.Pends r e) : g'.Answered e.ticket msg := by
  obtain ⟨g₁, hc, hb⟩ := board_of_arrival (H := fun q => g.held? q) hstep harr
  have hkept : (g₁.boardWith fun q => g.held? q).Kept := (hr.kept h₀).step hc.step
  have hpends : g₁.Pends r e := (Board.pends_carried (b := g.board) hc.sessions).mpr he
  obtain ⟨hanswer, -⟩ := hkept.resolved hpends hid
  rw [← hb] at hanswer
  obtain ⟨w, hw, -⟩ := (hr.ticketed h₀).waits r e he
  have hw₁ : g₁.waiter? e.ticket = some w := by
    rw [waiter?, hc.waiters]
    exact hw
  exact ⟨{ w with state := .answered msg }, hanswer.trans (congrArg _ hw₁), rfl⟩

theorem Run.waited (h₀ : g₀.IsNew) (hr : Run g₀ ms g₁) (hrest : Run g₁ ns g)
    (hstep : g.perform a = some g') (he : g₁.Pends r e)
    (hquiet : ∀ n ∈ ns, ∀ msg', n.arrival? = some (r, msg') → msg'.id ≠ some e.id)
    (ha : g'.Answered e.ticket msg) : g.Pends r e := by
  have hn := hr.numbered h₀.numbered
  have hlt := (hr.lent h₀).entry_lt r e he
  obtain ⟨es, hpath, harr, -⟩ := hrest.boards hn
  obtain ⟨es', hpath', -⟩ := posted_perform (hrest.numbered hn) hstep
  have hlt' := Nat.lt_of_lt_of_le hlt hpath.nextTicket_le
  -- whatever waits under this ticket is this entry
  have hsame {q : SessionRef} {k : Pending} (hk : g₁.Pends q k) (ht : k.ticket = e.ticket) :
      q = r ∧ k = e := by
    obtain ⟨rfl, hid⟩ := (hr.ticketed h₀).apart q r k e hk he ht
    exact ⟨rfl, (hr.kept h₀).unique q k e hk he hid⟩
  rcases hpath'.answered ha hlt' with ha | ⟨q, k, -, -, ht, hk⟩
  · rcases hpath.answered ha hlt with ha | ⟨q, k, hmem, hid, ht, hk⟩
    · obtain ⟨w, hw, hwait⟩ := (hr.ticketed h₀).waits r e he
      obtain ⟨w', hw', hans⟩ := ha
      cases hw.symm.trans hw'
      cases hwait.symm.trans hans
    · obtain ⟨rfl, rfl⟩ := hsame hk ht
      rw [harr] at hmem
      obtain ⟨n, hmem, hn⟩ := List.mem_filterMap.mp hmem
      exact absurd hid (hquiet n hmem msg hn)
  · obtain ⟨rfl, rfl⟩ := hsame (hpath.pends hk (ht ▸ hlt)) ht
    exact hk

/-- Handles come and go with entries in all runs, and take those of others with them in one case
only. -/
theorem letting_go (h₀ : g₀.IsNew) (hr : Run g₀ ms g) : LettingGo ms where
  refused m hmem p hf r e := by
    obtain ⟨before, after, hms⟩ := List.append_of_mem hmem
    obtain ⟨hrun, hstep, -⟩ := hr.split hms
    exact hf.pends (hrun.numbered h₀.numbered) hstep
  takenUp m hmem p h ht := by
    obtain ⟨before, after, hms⟩ := List.append_of_mem hmem
    obtain ⟨hrun, hstep, -⟩ := hr.split hms
    exact ht.pends (hrun.numbered h₀.numbered) hstep
  alone m hmem r e e' := by
    obtain ⟨before, after, hms⟩ := List.append_of_mem hmem
    obtain ⟨hrun, -, -⟩ := hr.split hms
    exact (hrun.kept h₀).unique r e e'
  letGo m hmem p h hgo r e := by
    obtain ⟨before, after, hms⟩ := List.append_of_mem hmem
    obtain ⟨hrun, hstep, -⟩ := hr.split hms
    exact hgo.pends (hrun.numbered h₀.numbered) hstep
  restored past m interim m' after p h hms ht hgo r e hothers := by
    obtain ⟨hrun, hstep, hrest⟩ := hr.split hms
    obtain ⟨hmid, hstep', -⟩ := hrest.split rfl
    have hrun₁ := hrun.snoc hstep
    have hn := hrun.numbered h₀.numbered
    have hn₁ := hrun₁.numbered h₀.numbered
    obtain ⟨method, hfresh, hentered⟩ := ht.pends hn hstep
    have hlt := (hrun₁.lent h₀).handle_lt p h ht.2
    have hkept := hmid.unchanged hn₁ hlt hgo.1 hothers
    rw [hgo.pends (hmid.numbered hn₁) hstep', hkept, hentered]
    constructor
    · rintro ⟨hold | ⟨rfl, rfl⟩, hother⟩
      · exact hold
      · exact absurd ⟨rfl, rfl⟩ hother
    · refine fun hold => ⟨.inl hold, ?_⟩
      rintro ⟨rfl, hid⟩
      exact hfresh e hold hid
  registered m hmem r id method hact := by
    obtain ⟨before, after, hms⟩ := List.append_of_mem hmem
    obtain ⟨-, hstep, -⟩ := hr.split hms
    rw [hact] at hstep
    exact pends_register hstep
  stays m hmem r e he := by
    obtain ⟨before, after, hms⟩ := List.append_of_mem hmem
    obtain ⟨hrun, hstep, -⟩ := hr.split hms
    exact hrun.stays_iff_step h₀ hstep he
  displaces before m after p h hms hgo := by
    obtain ⟨hrun, -, -⟩ := hr.split hms
    constructor
    · rintro ⟨e, he, hid, hne⟩
      obtain ⟨earlier, j, since, method, rfl, hj, hact, hfree, hsince⟩ :=
        hrun.displaced h₀ hgo.1 he hid hne
      obtain ⟨hrunj, -, -⟩ := hrun.split rfl
      have hgone (k : Pending) (hk : j.before.Pends h.session k) : k.ticket ≠ h.ticket :=
        fun heq => hfree k hk ((hrunj.lent h₀).own p h _ k hj hk heq).2
      obtain ⟨past, i, interim, rfl, hi, hclears⟩ := hrunj.cleared h₀ hj hgone
      exact ⟨past, i, interim, j, since, method, by simp, hi, hclears, hact, hsince⟩
    · rintro ⟨past, i, interim, j, since, method, rfl, hi, -, hact, hsince⟩
      have hn := h₀.numbered
      obtain ⟨hrunj, hstepj, hsincej⟩ :=
        hrun.split (show _ = (past ++ i :: interim) ++ j :: since by simp)
      obtain ⟨hruni, hstepi, hinterim⟩ := hrunj.split rfl
      rw [hact] at hstepj
      have hentry : j.after.Pends h.session ⟨h.id, method, j.before.nextTicket⟩ :=
        ((pends_register hstepj).2 _ _).mpr (.inr ⟨rfl, rfl⟩)
      -- the ticket of the handle is older than that of the entry
      have hlt : h.ticket < i.before.nextTicket := (hruni.lent h₀).handle_lt p h hi
      obtain ⟨es, hpath, -⟩ := ((Run.single hstepi).append hinterim).boards (hruni.numbered hn)
      have hle : i.before.nextTicket ≤ j.before.nextTicket := hpath.nextTicket_le
      refine ⟨_, ((hrunj.snoc hstepj).stays_iff h₀ hsincej hentry).mpr hsince, rfl, ?_⟩
      exact Nat.ne_of_gt (Nat.lt_of_lt_of_le hlt hle)
  resolved past m interim m' after r e msg hms he harr hid hquiet := by
    obtain ⟨hrun, hstep, hrest⟩ := hr.split hms
    obtain ⟨hmid, hstep', -⟩ := hrest.split rfl
    have hrun₁ := hrun.snoc hstep
    rw [← hrun₁.stays_iff h₀ hmid he]
    constructor
    · exact hrun₁.waited h₀ hmid hstep' he hquiet
    · exact (hrun₁.append hmid).answers h₀ hstep' harr hid

end Run

theorem letting_go_displacing : ∃ past j m n g h e msg,
    Run (Gateway.new {} []) (past ++ [j, m, n]) g ∧ j.act = .register h.session h.id e.method ∧
      m.LetsGo 0 h ∧ e.ticket ≠ h.ticket ∧ m.before.Pends h.session e ∧ ¬ m.after.Pends h.session e ∧
      n.act = .resolve h.session msg ∧ msg.id = some e.id ∧ ¬ n.after.Answered e.ticket msg := by
  let h : Handle := ⟨0, .number 1, 0⟩
  let e : Pending := ⟨.number 1, "x", 1⟩
  let msg : Message := .success (.number 1) .null
  obtain ⟨past, g, hr, -, hlast⟩ := Run.exists_of_replay
    [.openSession ["a"] "owner" .client {}, .request "a" "ping" none none, .control 0,
      .resolve 0 msg]
    (Gateway.new {} [])
    (fun _ g => (g.perform (.register 0 h.id e.method)).any fun g' =>
      g'.held? 0 = some h ∧ (g'.abort 0).held? 0 = none ∧ (g'.session? 0).any (e ∈ ·.pending))
    (by decide +kernel)
  simp only [Option.any_eq_true, decide_eq_true_eq] at hlast
  obtain ⟨g', hstep, hheld, hfree, s, hs, he⟩ := hlast
  have habort : g'.perform (.abort 0) = some (g'.abort 0) := rfl
  have hresolve : (g'.abort 0).perform (.resolve 0 msg) = some ((g'.abort 0).resolve 0 msg).2 := rfl
  have hrun := ((hr.snoc hstep).snoc habort).snoc hresolve
  simp only [List.append_assoc, List.cons_append, List.nil_append] at hrun
  have hgo : Moment.LetsGo 0 h ⟨g', .abort 0, g'.abort 0⟩ := ⟨hheld, by simp [hfree]⟩
  have hpends : g'.Pends 0 e := ⟨s, hs, he⟩
  have hall := letting_go ⟨_, [], 0, rfl⟩ hrun
  have hgone := (hall.letGo ⟨g', .abort 0, g'.abort 0⟩ (by simp) 0 h hgo 0 e).not.mpr
    fun hkept => hkept.2 ⟨rfl, rfl⟩
  have hanswered := hall.resolved past ⟨g, _, g'⟩ [⟨g', .abort 0, g'.abort 0⟩] _ [] 0 e msg rfl
    hpends rfl rfl (by simp [Moment.arrival?])
  refine ⟨past, _, _, _, _, h, e, msg, hrun, rfl, hgo, by decide, hpends, hgone, rfl, rfl, ?_⟩
  exact fun ha => hanswered.mp ha _ (List.mem_singleton_self _) (.letGo hgo rfl rfl)

end AgentGateway
