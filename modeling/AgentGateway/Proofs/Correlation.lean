import AgentGateway.Proofs.Answers
import AgentGateway.Proofs.Requests

namespace AgentGateway

namespace Gateway

def Pends (r : SessionRef) (e : Pending) (g : Gateway) : Prop :=
  ∃ s, g.session? r = some s ∧ e ∈ s.pending

def Closed (r : SessionRef) (g : Gateway) : Prop := ∃ s, g.session? r = some s ∧ s.status = .closed

theorem IsNew.matched {g : Gateway} (h : g.IsNew) : g.board.Matched := by
  obtain ⟨settings, tools, epoch, rfl⟩ := h
  constructor
  case held | waits | unclosed =>
    rintro r e ⟨s, hs, -⟩
    cases hs
  case issued | ticket_lt | waiter_lt =>
    intro p h hp
    cases hp
  case alone | single =>
    intro p q h h' hp
    cases hp

end Gateway

namespace Moment

def Answers (t : Ticket) (msg : Message) (m : Moment) : Prop :=
  ¬ m.before.Answered t msg ∧ m.after.Answered t msg

def Releases (r : SessionRef) (e : Pending) (m : Moment) : Prop :=
  ∃ p, m.before.held? p = some ⟨r, e.id, e.ticket⟩ ∧ m.after.held? p ≠ some ⟨r, e.id, e.ticket⟩

def Leaves (r : SessionRef) (e : Pending) (m : Moment) : Prop :=
  m.before.Pends r e ∧ ¬ m.after.Pends r e

end Moment

/-- That no host registers or withdraws a request by itself. -/
def Unhosted (ms : List Moment) : Prop := ∀ m ∈ ms, ¬ m.act.IsHosted

/-- What holds of requests and responses in what has happened to a gateway. -/
structure Correlated (ms : List Moment) : Prop where
  returned : ∀ before m after p h msg, ms = before ++ m :: after → m.Returns p h msg →
    msg.id = some h.id ∧
      (∃ m₀ ∈ before, ∃ method params, m₀.sent p h.session = [.request h.id method params]) ∧
      ∃ m₁ ∈ before, m₁.arrival? = some (h.session, msg) ∧ m₁.Answers h.ticket msg
  /-- Nobody is handed a message but one that comes in on the session and under the id of the own
  request. -/
  answered : ∀ m ∈ ms, ∀ p h msg, m.after.held? p = some h → m.Answers h.ticket msg →
    m.arrival? = some (h.session, msg) ∧ msg.id = some h.id
  handed : ∀ m ∈ ms, ∀ t t' msg msg', m.Answers t msg → m.Answers t' msg' → t = t'
  handed_once : ∀ before m interim m' after t msg msg',
    ms = before ++ m :: (interim ++ m' :: after) → m.Answers t msg → ¬ m'.Answers t msg'
  returned_once : ∀ before m interim m' after p q h h' msg msg',
    ms = before ++ m :: (interim ++ m' :: after) → m.Returns p h msg → m'.Returns q h' msg' →
      h.ticket ≠ h'.ticket
  /-- A request waits until its response comes in, its handle is given up or its session closes. -/
  leaves : ∀ m ∈ ms, ∀ r e, m.before.Pends r e → (¬ m.after.Pends r e ↔
    (∃ msg, m.arrival? = some (r, msg) ∧ msg.id = some e.id) ∨ m.Releases r e ∨ m.after.Closed r)
  /-- What has left never waits again, nor does anything else under its id. -/
  left : ∀ before m interim m' after r e e',
    ms = before ++ m :: (interim ++ m' :: after) → m.Leaves r e → m'.after.Pends r e' →
      e'.id ≠ e.id
  late : ∀ before m interim m' after r e msg t msg',
    ms = before ++ m :: (interim ++ m' :: after) → m.Leaves r e →
      m'.arrival? = some (r, msg) → msg.id = some e.id → ¬ m'.Answers t msg'

section Run

open Gateway

variable {g₀ g : Gateway} {ms before after interim : List Moment} {m m' : Moment}
  {r : SessionRef} {e e' : Pending} {t t' : Ticket} {msg msg' : Message} {p q : ProcessId}
  {h h' : Handle}

structure Moment.Posts (m : Moment) (es : List Errand) : Prop where
  matched : m.before.board.Matched
  path : Board.Path m.before.board es m.after.board
  arrivals : es.filterMap Errand.arrival? = m.arrival?.toList
  unhosted : .hosted ∉ es

theorem Run.matched (h₀ : g₀.IsNew) (hr : Run g₀ ms g) (hu : Unhosted ms) : g.board.Matched := by
  obtain ⟨es, hp, -, hes⟩ := hr.boards h₀.numbered
  exact h₀.matched.path hp (hes hu)

theorem Run.posts (h₀ : g₀.IsNew) (hr : Run g₀ ms g) (hu : Unhosted ms)
    (hms : ms = before ++ m :: after) : ∃ es, m.Posts es := by
  obtain ⟨hrun, hstep, -⟩ := hr.split hms
  obtain ⟨es, hp, harr, hes⟩ := posted_perform (hrun.numbered h₀.numbered) hstep
  have hact := hu m (by simp [hms])
  exact ⟨es, hrun.matched h₀ fun m hm => hu m (by simp [hms, hm]), hp, harr, hes hact⟩

theorem Run.between (h₀ : g₀.IsNew) (hr : Run g₀ ms g) (hu : Unhosted ms)
    (hms : ms = before ++ m :: (interim ++ m' :: after)) : ∃ es es₁ es', m.Posts es ∧
      m'.Posts es' ∧ Board.Path m.after.board es₁ m'.before.board ∧ .hosted ∉ es₁ := by
  obtain ⟨es, hm⟩ := hr.posts h₀ hu hms
  have hms' : ms = (before ++ m :: interim) ++ m' :: after := by simp [hms]
  obtain ⟨es', hm'⟩ := hr.posts h₀ hu hms'
  obtain ⟨hrun, hstep, hrest⟩ := hr.split hms
  obtain ⟨hmid, -, -⟩ := hrest.split rfl
  have hn : m.after.Numbered := (hrun.snoc hstep).numbered h₀.numbered
  obtain ⟨es₁, hp, -, hes₁⟩ := hmid.boards hn
  exact ⟨es, es₁, es', hm, hm', hp, hes₁ fun x hx => hu x (by simp [hms, hx])⟩

variable {es : List Errand}

namespace Moment.Posts

theorem mem_arrivals (hm : m.Posts es) :
    (r, msg) ∈ es.filterMap Errand.arrival? ↔ m.arrival? = some (r, msg) := by
  rw [hm.arrivals, Option.mem_toList]

theorem matched_after (hm : m.Posts es) : m.after.board.Matched :=
  hm.matched.path hm.path hm.unhosted

theorem answers (hm : m.Posts es) (ha : m.Answers t msg) :
    ∃ r id, m.arrival? = some (r, msg) ∧ msg.id = some id ∧ ¬ m.before.board.Retired r id ∧
      ¬ m.before.board.Spent t ∧
      ∀ p h, m.after.held? p = some h → h.ticket = t → h.session = r ∧ h.id = id := by
  obtain ⟨r, id, hmem, hrest⟩ :=
    (hm.matched.answered hm.path hm.unhosted ha.2).resolve_left ha.1
  exact ⟨r, id, hm.mem_arrivals.mp hmem, hrest⟩

theorem spent (hm : m.Posts es) (ha : m.Answers t msg) : m.after.board.Spent t := by
  obtain ⟨w, hw, hans⟩ := ha.2
  refine ⟨?_, hm.matched_after.waiter_lt t w hw⟩
  rintro ⟨w', hw', hwait⟩
  cases hw.symm.trans hw'
  cases hans.symm.trans hwait

theorem unheld (hm : m.Posts es) (hh : m.before.held? p = some h)
    (hh' : m.after.held? p ≠ some h) : m.after.board.Unheld h.ticket := by
  have hlt : h.ticket < m.before.board.nextTicket := hm.matched.ticket_lt p h hh
  refine ⟨fun q k hq ht => ?_, Nat.lt_of_lt_of_le hlt hm.path.nextTicket_le⟩
  rcases hm.path.handle hq with hold | hnew
  · obtain rfl := hm.matched.single q p k h hold hh ht
    obtain rfl := Option.some.inj (hold.symm.trans hh)
    exact hh' hq
  · exact absurd hlt (Nat.not_lt.mpr (ht ▸ hnew))

theorem unheld_of_returns (hm : m.Posts es) (hr : m.Returns p h msg) :
    m.after.board.Unheld h.ticket := by
  refine hm.unheld hr.1 fun hheld => ?_
  obtain ⟨y, hy, hyh⟩ := Option.bind_eq_some_iff.mp hheld
  obtain ⟨y', hy', hres⟩ := Option.bind_eq_some_iff.mp hr.2
  cases hy.symm.trans hy'
  obtain ⟨c, hc, hch⟩ := Option.bind_eq_some_iff.mp hyh
  obtain ⟨c', hc', hdone⟩ := Option.bind_eq_some_iff.mp hres
  cases hc.symm.trans hc'
  split at hdone
  · rename_i hs
    simp [Call.handle?, hs] at hch
  · cases hdone

theorem leaves_iff (hm : m.Posts es) (he : m.before.Pends r e) : ¬ m.after.Pends r e ↔
    (∃ msg, m.arrival? = some (r, msg) ∧ msg.id = some e.id) ∨ m.Releases r e ∨
      m.after.Closed r := by
  obtain ⟨p, hp⟩ := hm.matched.held r e he
  constructor
  · intro hgone
    rcases hm.matched.stays hm.path hm.unhosted he with h | ⟨msg, hmem, hid⟩ | h | h
    · exact (hgone h).elim
    · exact .inl ⟨msg, hm.mem_arrivals.mp hmem, hid⟩
    · exact .inr (.inl ⟨p, hp, fun hp' => h.1 p _ hp' rfl⟩)
    · exact .inr (.inr h)
  · rintro (⟨msg, harr, hid⟩ | ⟨q, hq, hq'⟩ | hclosed) hstill
    · have hret := hm.path.retires hm.unhosted (hm.matched.pending_issued he)
        (hm.mem_arrivals.mpr harr) hid
      exact hret.2 e hstill rfl
    · obtain ⟨p', hp'⟩ := hm.matched_after.held r e hstill
      exact (hm.unheld hq hq').1 p' _ hp' rfl
    · exact hm.matched_after.unclosed r e hstill hclosed

theorem retired (hm : m.Posts es) (hl : m.Leaves r e) : m.after.board.Retired r e.id := by
  exact hm.matched.left hm.path hm.unhosted hl.1 hl.2

end Moment.Posts

theorem Run.handed (h₀ : g₀.IsNew) (hr : Run g₀ ms g) (hu : Unhosted ms)
    (hh : g.held? p = some h) (ha : g.Answered h.ticket msg) :
    msg.id = some h.id ∧
      ∃ m ∈ ms, m.arrival? = some (h.session, msg) ∧ m.Answers h.ticket msg := by
  induction hr with
  | nil =>
      obtain ⟨settings, tools, epoch, rfl⟩ := h₀
      cases hh
  | @snoc ms g a g' hrun hstep ih =>
      have hold : Unhosted ms := fun m hm => hu m (by simp [hm])
      have hms : ms ++ [⟨g, a, g'⟩] = ms ++ (⟨g, a, g'⟩ : Moment) :: [] := rfl
      obtain ⟨es, hm⟩ := (hrun.snoc hstep).posts h₀ hu hms
      by_cases ha₀ : g.Answered h.ticket msg
      · have ⟨w, hw, _⟩ := ha₀
        have hlt : h.ticket < g.board.nextTicket := hm.matched.waiter_lt _ w hw
        have hh₀ : g.held? p = some h := (hm.path.handle hh).resolve_right (Nat.not_le.mpr hlt)
        obtain ⟨hid, m, hmem, harr, hans⟩ := ih hold hh₀ ha₀
        exact ⟨hid, m, by simp [hmem], harr, hans⟩
      · obtain ⟨r, id, harr, hid, -, -, hheld⟩ := hm.answers ⟨ha₀, ha⟩
        obtain ⟨rfl, rfl⟩ := hheld p h hh rfl
        exact ⟨hid, ⟨g, a, g'⟩, by simp, harr, ha₀, ha⟩

/-- Requests and responses are matched in every run. -/
theorem correlated (h₀ : g₀.IsNew) (hr : Run g₀ ms g) (hu : Unhosted ms) : Correlated ms where
  returned before m after p h msg hms hret := by
    obtain ⟨hrun, hstep, -⟩ := hr.split hms
    have hold : Unhosted before := fun m hm => hu m (by simp [hms, hm])
    obtain ⟨hans, x, c, deadline, hx, hxc, hs⟩ :=
      answered_of_returns (hrun.numbered h₀.numbered) hstep hret
    obtain ⟨hid, hcame⟩ := hrun.handed h₀ hold hret.1 hans
    have hsent := hrun.sent h₀ p x c hx hxc
    simp only [Call.Sent, hs] at hsent
    obtain ⟨m₀, hm₀, hrequest⟩ := hsent
    exact ⟨hid, ⟨m₀, hm₀, _, _, hrequest⟩, hcame⟩
  answered m hmem p h msg hh ha := by
    obtain ⟨before, after, hms⟩ := List.append_of_mem hmem
    obtain ⟨es, hm⟩ := hr.posts h₀ hu hms
    obtain ⟨r, id, harr, hid, -, -, hheld⟩ := hm.answers ha
    obtain ⟨rfl, rfl⟩ := hheld p h hh rfl
    exact ⟨harr, hid⟩
  handed m hmem t t' msg msg' ha ha' := by
    obtain ⟨before, after, hms⟩ := List.append_of_mem hmem
    obtain ⟨es, hm⟩ := hr.posts h₀ hu hms
    refine hm.matched.answered_once hm.path hm.unhosted ?_ ha.1 ha'.1 ha.2 ha'.2
    rw [hm.arrivals]
    cases m.arrival? <;> simp
  handed_once before m interim m' after t msg msg' hms ha ha' := by
    obtain ⟨es, es₁, es', hm, hm', hp, hes₁⟩ := hr.between h₀ hu hms
    obtain ⟨r, id, -, -, -, hspent, -⟩ := hm'.answers ha'
    exact hspent ((hm.spent ha).path hp hes₁)
  returned_once before m interim m' after p q h h' msg msg' hms hret hret' ht := by
    obtain ⟨es, es₁, es', hm, -, hp, hes₁⟩ := hr.between h₀ hu hms
    have hun := (hm.unheld_of_returns hret).path hp hes₁
    exact hun.1 q h' hret'.1 ht.symm
  leaves m hmem r e he := by
    obtain ⟨before, after, hms⟩ := List.append_of_mem hmem
    obtain ⟨es, hm⟩ := hr.posts h₀ hu hms
    exact hm.leaves_iff he
  left before m interim m' after r e e' hms hl he' := by
    obtain ⟨es, es₁, es', hm, hm', hp, hes₁⟩ := hr.between h₀ hu hms
    have hret := ((hm.retired hl).path hp hes₁).path hm'.path hm'.unhosted
    exact hret.2 e' he'
  late before m interim m' after r e msg t msg' hms hl harr hid ha := by
    obtain ⟨es, es₁, es', hm, hm', hp, hes₁⟩ := hr.between h₀ hu hms
    obtain ⟨r', id, harr', hid', hnot, -⟩ := hm'.answers ha
    cases harr.symm.trans harr'
    obtain rfl := Option.some.inj (hid.symm.trans hid')
    exact hnot ((hm.retired hl).path hp hes₁)

end Run

theorem correlated_response : ∃ g before m g' p h msg, Run g (before ++ [m]) g' ∧
    Unhosted (before ++ [m]) ∧ m.Returns p h msg ∧ msg.id = some h.id ∧
    ∃ m₁ ∈ before, m₁.arrival? = some (h.session, msg) := by
  obtain ⟨before, g, hr, hacts, h⟩ := Run.exists_of_replay
    [.openSession ["a"] "owner" .server {}, .request "a" "ping" none none, .control 0, .control 0,
      .submit "a" (.success (.number 1) (.object [])), .control 1] (Gateway.new {} [])
    (fun _ g => (g.held? 0).isSome ∧ (g.perform (.control 0)).any fun g =>
      ((g.process? 0).bind Process.result?).any Except.isOk) (by decide +kernel)
  simp only [Option.any_eq_true, decide_eq_true_eq] at h
  obtain ⟨hheld, g', hstep, r, hres, hok⟩ := h
  obtain ⟨k, hk⟩ := Option.isSome_iff_exists.mp hheld
  obtain ⟨msg, rfl⟩ : ∃ msg, r = .ok msg := by
    cases r with
    | ok msg => exact ⟨msg, rfl⟩
    | error e => cases hok
  have hr := hr.snoc hstep
  have hu : Unhosted (before ++ [⟨g, .control 0, g'⟩]) := by
    have hall : ∀ a ∈ before.map Moment.act, ¬ a.IsHosted := by
      rw [hacts]
      simp [Act.IsHosted]
    intro m hm
    rcases List.mem_append.mp hm with hm | hm
    · exact hall _ (List.mem_map_of_mem hm)
    · simp [List.mem_singleton.mp hm, Act.IsHosted]
  have hret : Moment.Returns 0 k msg ⟨g, .control 0, g'⟩ := ⟨hk, hres⟩
  obtain ⟨hid, -, m₁, hm₁, harr, -⟩ :=
    (correlated ⟨{}, [], 0, rfl⟩ hr hu).returned _ _ _ _ _ _ rfl hret
  exact ⟨_, _, _, _, _, k, msg, hr, hu, hret, hid, m₁, hm₁, harr⟩

end AgentGateway
