import AgentGateway.Proofs.Awaited
import AgentGateway.Proofs.Sweeping
/-!
A sweeper evicts sessions neither early nor late. Whatever else happens in the course of a sweep, a
session is evicted only while it is idle for too long, and as long as the sweeper goes on none is
there that has been for more than an interval.
-/

namespace AgentGateway

namespace Gateway

/-- That whoever waits for the response of a ticket learns that none will come. -/
structure Cancels (t : Ticket) (g : Gateway) : Prop where
  state : g.waiterState t = .cancelled
  told : ∀ q c h deadline, c.stage = .waiting h deadline → h.ticket = t →
    ∃ g', g.call? q c = some ({ c with stage := .done (.error (.cancelled h.id)) }, g')

/-- That each live session was active, or the sweeper started, no longer than a timeout before a
time, save for those under some ids. -/
def Within (timeout started time : Nanos) (ids : List String) (g : Gateway) : Prop :=
  ∀ r s, r ∈ g.live → g.session? r = some s →
    time ≤ max (s.lastActivity + timeout) started ∨ s.id ∈ ids

structure Follows (base g : Gateway) : Prop where
  now : base.now ≤ g.now
  live : ∀ r s, r ∈ g.live → g.session? r = some s → r ∈ base.live ∨ base.now ≤ s.lastActivity

end Gateway

namespace Sweeping

namespace Moment

/-- Whether the clock does not go past the time at which the sweeper wakes. -/
def onTime (p : ProcessId) (y : Moment) : Bool :=
  match y.move with
  | .act a => a.elapsed = 0 || (y.before.gateway.sweeper? p).all fun w => w.finished ||
      y.before.round.isNone && w.wakesAt.any (y.before.gateway.now + a.elapsed ≤ ·)
  | _ => true

end Moment

structure Alone (p : ProcessId) (x : Sweeping) (ys : List Moment) (x' : Sweeping) : Prop where
  way : Way (step p) x ys x'
  own : ∀ y ∈ ys, y.move.isOwn p = true
  now : x'.gateway.now = x.gateway.now

def IsQuiet (p : ProcessId) (x : Sweeping) : Prop :=
  x.round = none ∧ ∃ w, x.gateway.sweeper? p = some w ∧
    (w.finished = true ∨ ∃ t, w.wakesAt = some t ∧ x.gateway.now < t)

structure Sound (p : ProcessId) (T i : Nanos) (x : Sweeping) : Prop where
  enlisted : x.gateway.Enlisted
  numbered : x.gateway.Numbered
  cleared : Cleared x.gateway []
  kept : x.gateway.board.Kept
  begun : p < x.gateway.nextProcess
  process : ∀ z, x.gateway.process? p = some z →
    ∃ w, z = .sweeper w ∧ w.idleTimeout = T ∧ w.interval = i
  timeout : ∀ k, x.round = some k → k.timeout = T

/-- How a sweeper stands that has not come to its end, when no session was overdue at a time that is
no longer ago than its interval: it sleeps for an interval from there, or sweeps at its end. -/
structure Timely (T i started since : Nanos) (w : Sweeper) (x : Sweeping) : Prop where
  past : since ≤ x.gateway.now
  recent : x.gateway.now ≤ since + i
  within : x.gateway.Within T started since []
  wakes : ∀ t, w.wakesAt = some t → t = since + i
  awake : w.wakesAt = none → since = x.gateway.now
  suspects : ∀ k, x.round = some k → x.gateway.Within T started x.gateway.now k.suspects

end Sweeping

namespace Gateway

variable {base g g' : Gateway} {p q : ProcessId} {r : SessionRef} {t : Ticket} {a : Act}
  {T started time : Nanos} {ids : List String}

theorem cancels_of_state (h : g.waiterState t = .cancelled) : g.Cancels t where
  state := h
  told q c k deadline hstage hticket := by
    subst hticket
    rw [call?, hstage]
    dsimp only
    unfold awaitCall
    rw [waiterState] at h
    cases hw : (g.waiter? k.ticket).map Waiter.state with
    | none => exact ⟨_, rfl⟩
    | some state =>
        rw [hw, Option.getD_some] at h
        subst h
        exact ⟨_, rfl⟩

theorem waiterState_of_desk (h : g'.desk = g.desk) : g'.waiterState t = g.waiterState t := by
  have hwaiters : g'.waiters = g.waiters := congrArg Desk.waiters h
  rw [waiterState, waiterState, waiter?, waiter?, hwaiters]

theorem waits_of_state (h : g.waiterState t = .waiting) : g.board.Waits t := by
  rw [waiterState] at h
  cases hw : g.waiter? t with
  | none =>
      rw [hw] at h
      cases h
  | some w =>
      rw [hw] at h
      exact ⟨w, hw, h⟩

theorem Within.other (h : g.Within T started time ids) (htime : time ≤ g.now) (hl : g.live.Nodup)
    (hn : g.Numbered) (hstep : g.perform a = some g') : g'.Within T started time ids := by
  intro r s' hr hs'
  rcases stirred_or_kept hl hn hstep hr hs' with hnow | ⟨hr, s, hs, hid, hsame⟩
  · rw [hnow]
    exact .inl (Nat.le_trans (Nat.le_add_right_of_le htime) (Nat.le_max_left ..))
  · rw [hid, hsame]
    exact h r s hr hs

theorem Within.stills (h : g.Within T started time ids) (hg : Stills g g') :
    g'.Within T started time ids := by
  intro r s' hr hs'
  obtain ⟨s, hs, hid, hsame⟩ := hg.back hs'
  rw [hid, hsame]
  exact h r s (hg.live.subset hr) hs

theorem Follows.act (h : Follows base g) (hl : g.live.Nodup) (hn : g.Numbered)
    (hstep : g.perform a = some g') : Follows base g' where
  now := now_perform hl hstep ▸ Nat.le_add_right_of_le h.now
  live r s' hr hs' := by
    rcases stirred_or_kept hl hn hstep hr hs' with hnow | ⟨hr, s, hs, -, hsame⟩
    · exact .inr (hnow ▸ h.now)
    · exact hsame ▸ h.live r s hr hs

theorem Follows.stills (h : Follows base g) (hg : Stills g g') : Follows base g' where
  now := hg.now ▸ h.now
  live r s' hr hs' := by
    obtain ⟨s, hs, -, hsame⟩ := hg.back hs'
    exact hsame ▸ h.live r s (hg.live.subset hr) hs

theorem within_idleIds : g.Within T started g.now (g.idleIds T) := by
  intro r s hr hs
  cases hidle : s.isIdle T g.now with
  | true => exact .inr (List.mem_filterMap.mpr ⟨r, hr, by simp [hs, hidle]⟩)
  | false =>
      have hrecent : g.now - s.lastActivity ≤ T := Nat.le_of_not_lt (of_decide_eq_false hidle)
      exact .inl (Nat.le_trans (Nat.sub_le_iff_le_add'.mp hrecent) (Nat.le_max_left ..))

theorem within_evictIdle : (g.evictIdle T).2.Within T started g.now [] := by
  have hstills : Stills g (g.evictIdle T).2 := stills_evictIdle
  intro r s' hr hs'
  obtain ⟨s, hs, -, hsame⟩ := hstills.back hs'
  rw [live_evictIdle, List.mem_filter, decide_eq_true_eq] at hr
  obtain ⟨hr, hbusy⟩ := hr
  have hrecent : g.now - s.lastActivity ≤ T :=
    Nat.le_of_not_lt fun hidle => hbusy ((mem_idlers hr hs).mpr (decide_eq_true hidle))
  rw [hsame]
  exact .inl (Nat.le_trans (Nat.sub_le_iff_le_add'.mp hrecent) (Nat.le_max_left ..))

theorem Within.of_desk (h : g.Within T started time ids) (hd : g'.desk = g.desk) :
    g'.Within T started time ids := h.stills (stills_of_desk hd)

theorem board_of_held? (h : ∀ q, g'.held? q = g.held? q) :
    g'.board = g'.boardWith fun q => g.held? q := congrArg (g'.boardWith ·) (funext h)

theorem board_setProcess {z z' : Process} (hz : g.process? p = some z)
    (hsame : z'.handle? = z.handle?) : (g.setProcess p z').board = g.board := by
  refine board_of_held? fun q => ?_
  by_cases hq : q = p
  · subst hq
    exact held?_setProcess hz hsame
  · rw [held?, held?, process?_setProcess, if_neg hq]

theorem board_rearm : (g.rearm p).board = g.board := by
  unfold rearm
  cases hw : g.sweeper? p with
  | none => rfl
  | some w => exact board_setProcess (process?_of_sweeper? hw) rfl

theorem process?_rearm {z : Process} (hz : (g.rearm p).process? p = some z) :
    g.process? p = some z ∨
      ∃ w, g.sweeper? p = some w ∧ z = .sweeper { w with wakesAt := none } := by
  cases hw : g.sweeper? p with
  | none =>
      rw [rearm, hw] at hz
      exact .inl hz
  | some w =>
      cases hz.symm.trans (process?_of_sweeper? (sweeper?_rearm hw))
      exact .inr ⟨w, rfl, rfl⟩

end Gateway

namespace Sweeping

open Gateway

variable {p : ProcessId} {T i started since : Nanos} {r : SessionRef} {s : Session} {a : Act}
  {x x' : Sweeping} {v : Move} {w w' : Sweeper} {k : Round} {y : Moment} {xs : List Moment}
  {past : List AgentGateway.Moment} {base : Gateway}

theorem Sound.keep {o : Option ProcessId} {es : List Errand} (h : Sound p T i x)
    (he : x'.gateway.Enlisted) (hs : Spares o x.gateway x'.gateway)
    (hp : Board.Path x.gateway.board es x'.gateway.board)
    (hprocess : ∀ z, x'.gateway.process? p = some z →
      ∃ w, z = .sweeper w ∧ w.idleTimeout = T ∧ w.interval = i)
    (htimeout : ∀ k, x'.round = some k → k.timeout = T) : Sound p T i x' where
  enlisted := he
  numbered := hs.numbered
  cleared := h.cleared.path hp
  kept := h.kept.path hp
  begun := Nat.lt_of_lt_of_le h.begun hs.grown
  process := hprocess
  timeout := htimeout

theorem Sound.sweeper (h : Sound p T i x) (hw : x.gateway.sweeper? p = some w) :
    w.idleTimeout = T ∧ w.interval = i := by
  obtain ⟨w', heq, hw'⟩ := h.process _ (process?_of_sweeper? hw)
  cases heq
  exact hw'

theorem Sound.process?_other (h : Sound p T i x) (ha : a ≠ .control p)
    (hstep : x.gateway.perform a = some x'.gateway) {z : Process}
    (hz : x'.gateway.process? p = some z) : x.gateway.process? p = some z := by
  obtain ⟨z₀, hz₀, hk⟩ := kindred_begun h.numbered hstep ha h.begun hz
  obtain ⟨w, rfl, -⟩ := h.process z₀ hz₀
  exact hk.sweeper ▸ hz₀

theorem Turn.settings {g g' : Gateway} (h : Turn g w w' g') :
    w'.idleTimeout = w.idleTimeout ∧ w'.interval = w.interval := by
  cases h <;> exact ⟨rfl, rfl⟩

theorem Sound.turn (h : Sound p T i x) (hstep : x.step p (.act (.control p)) = some x') :
    ∃ w w', x.gateway.sweeper? p = some w ∧ x'.gateway.sweeper? p = some w' ∧
      Turn x.gateway w w' x'.gateway ∧ x.round = none ∧ x'.round = none := by
  obtain ⟨hround, hperform, hsame⟩ := step_act hstep
  have hcontrol := hperform
  obtain ⟨z, hz, -⟩ := Option.bind_eq_some_iff.mp hperform
  obtain ⟨w, rfl, -⟩ := h.process z hz
  obtain ⟨w', hw', hturn⟩ := turn_control? (sweeper?_eq hz) hcontrol
  exact ⟨w, w', sweeper?_eq hz, hw', hturn, hround rfl, hsame.trans (hround rfl)⟩

theorem Sound.act (h : Sound p T i x) (hstep : x.step p (.act a) = some x') :
    Sound p T i x' ∧ x.gateway.Ages x'.gateway := by
  obtain ⟨-, hperform, hround⟩ := step_act hstep
  obtain ⟨es, hp, -⟩ := posted_perform h.numbered hperform
  refine ⟨h.keep (h.enlisted.perform h.numbered hperform)
    (simulated_perform h.numbered hperform).spares hp (fun z hz => ?_) (hround ▸ h.timeout),
    hp.ages⟩
  by_cases ha : a = .control p
  · subst ha
    obtain ⟨w, w', hw, hw', hturn, -⟩ := h.turn hstep
    cases hz.symm.trans (process?_of_sweeper? hw')
    obtain ⟨hT, hi⟩ := h.sweeper hw
    exact ⟨w', rfl, hturn.settings.1.trans hT, hturn.settings.2.trans hi⟩
  · exact h.process z (h.process?_other ha hperform hz)

theorem Sound.still {o : Option ProcessId} {es : List Errand} (h : Sound p T i x)
    (hg : Stills x.gateway x'.gateway) (hs : Spares o x.gateway x'.gateway)
    (hp : Board.Path x.gateway.board es x'.gateway.board)
    (hprocess : ∀ z, x'.gateway.process? p = some z →
      ∃ w, z = .sweeper w ∧ w.idleTimeout = T ∧ w.interval = i)
    (htimeout : ∀ k, x'.round = some k → k.timeout = T) :
    Sound p T i x' ∧ Stills x.gateway x'.gateway ∧ x.gateway.Ages x'.gateway :=
  ⟨h.keep (hg.enlisted h.enlisted) hs hp hprocess htimeout, hg, hp.ages⟩

theorem Sound.own (h : Sound p T i x) (hown : v.isOwn p = true) (hstep : x.step p v = some x') :
    Sound p T i x' ∧ Stills x.gateway x'.gateway ∧ x.gateway.Ages x'.gateway := by
  have hsame : Spares none x.gateway x.gateway := spares_of_inner h.numbered rfl
  cases v with
  | act a =>
      obtain rfl := Act.isStepOf_iff.mp hown
      obtain ⟨w, w', -, -, hturn, -⟩ := h.turn hstep
      exact ⟨(h.act hstep).1, hturn.stills, (h.act hstep).2⟩
  | look =>
      obtain ⟨w, hw, -, -, rfl⟩ := step_look hstep
      refine h.still (stills_of_desk rfl) hsame .nil h.process ?_
      rintro k ⟨⟩
      exact (h.sweeper hw).1
  | recheck =>
      obtain ⟨k, id, ids, g', k', hk, -, hrechecked, rfl⟩ := step_recheck hstep
      have htimeout := h.timeout k hk
      cases hrechecked with
      | gone =>
          refine h.still stills_delist (spares_of_inner (o := none) h.numbered rfl) .nil h.process
            ?_
          rintro k' ⟨⟩
          exact htimeout
      | kept =>
          refine h.still (stills_of_desk rfl) hsame .nil h.process ?_
          rintro k' ⟨⟩
          exact htimeout
  | discharge =>
      obtain ⟨k, r, rest, hk, -, -, rfl⟩ := step_discharge hstep
      have hinner : (x.gateway.discharge r .idle).inner = x.gateway.inner := inner_discharge
      have hposts : Board.Posts none x.gateway.board (x.gateway.discharge r .idle).board := by
        rw [board_of_held? fun q => held?_of_inner hinner]
        exact posts_shut
      obtain ⟨es, hp, -⟩ := hposts
      refine h.still stills_discharge (spares_of_inner (o := none) h.numbered hinner) hp
        (fun z hz => h.process z (process?_of_inner hinner ▸ hz)) ?_
      rintro k' ⟨⟩
      exact h.timeout k hk
  | rest =>
      obtain ⟨k, -, -, -, rfl⟩ := step_rest hstep
      have hp : Board.Path x.gateway.board [] (x.gateway.rearm p).board := board_rearm ▸ .nil
      refine h.still (stills_of_desk desk_rearm) (spares_rearm h.numbered) hp (fun z hz => ?_)
        (by rintro k' ⟨⟩)
      rcases process?_rearm hz with hz | ⟨w, hw, rfl⟩
      · exact h.process z hz
      · have hsettings := h.sweeper hw
        exact ⟨_, rfl, hsettings⟩

def IsEvicted (r : SessionRef) (x : Sweeping) : Prop :=
  ∃ s, x.gateway.session? r = some s ∧ (r ∈ x.taken ∨ s.status = .closed)

theorem taken_of_round (hk : x.round = some k) : x.taken = k.taken := by
  rw [taken, hk, Option.elim_some]

theorem of_evicts (h : Sound p T i x) (hstep : x.step p v = some x')
    (hevicts : Moment.Evicts p r ⟨x, v, x'⟩) :
    IsEvicted r x' ∧ ∃ s, x.gateway.session? r = some s ∧ s.isIdle T x.gateway.now = true := by
  obtain ⟨hown, hr, hr'⟩ := hevicts
  have hs : x.gateway.session? r = some _ := List.getElem?_eq_getElem (h.enlisted.opened r hr)
  cases v with
  | act a =>
      obtain rfl := Act.isStepOf_iff.mp hown
      obtain ⟨w, w', hw, -, hturn, -⟩ := h.turn hstep
      cases hturn with
      | finish hdesk | sleep _ hdesk =>
          have hlive : x'.gateway.live = x.gateway.live := congrArg Desk.live hdesk
          exact absurd (hlive ▸ hr) hr'
      | sweep _ _ hdesk =>
          rw [(h.sweeper hw).1] at hdesk
          have hlive : x'.gateway.live = (x.gateway.evictIdle T).2.live :=
            congrArg Desk.live hdesk
          have hidle : r ∈ x.gateway.idlers T := by
            by_contra hbusy
            refine hr' (hlive ▸ live_evictIdle ▸ List.mem_filter.mpr ⟨hr, ?_⟩)
            simpa using hbusy
          obtain ⟨s', hs', -⟩ := (h.act hstep).2 r _ hs
          have hclosed : s'.status = .closed := by
            rw [session?_of_desk hdesk] at hs'
            exact closed_retireEach hidle hs'
          exact ⟨⟨s', hs', .inr hclosed⟩, _, hs, (mem_idlers hr hs).mp hidle⟩
  | look =>
      obtain ⟨w, -, -, -, rfl⟩ := step_look hstep
      exact absurd hr hr'
  | recheck =>
      obtain ⟨k, id, ids, g', k', hk, -, hrechecked, rfl⟩ := step_recheck hstep
      cases hrechecked with
      | @gone q s hfind hidle =>
          obtain ⟨-, hs, -⟩ := find?_spec hfind
          obtain rfl : r = q := by
            by_contra hne
            exact hr' (List.mem_filter.mpr ⟨hr, by simpa using hne⟩)
          rw [h.timeout k hk] at hidle
          exact ⟨⟨s, hs, .inl (List.mem_append_right _ (List.mem_singleton_self r))⟩, s, hs, hidle⟩
      | kept => exact absurd hr hr'
  | discharge =>
      obtain ⟨k, q, rest, -, -, -, rfl⟩ := step_discharge hstep
      have hlive : (x.gateway.discharge q .idle).live = x.gateway.live := live_shut
      exact absurd (hlive ▸ hr) hr'
  | rest =>
      obtain ⟨k, -, -, -, rfl⟩ := step_rest hstep
      have hlive : (x.gateway.rearm p).live = x.gateway.live := congrArg Desk.live desk_rearm
      exact absurd (hlive ▸ hr) hr'

theorem of_closes (h : Sound p T i x) (hstep : x.step p v = some x')
    (hcloses : Moment.Closes p r s ⟨x, v, x'⟩) {e : Pending} (he : e ∈ s.pending) :
    x'.gateway.Cancels e.ticket := by
  obtain ⟨hown, hs, hopen, s', hs', hclosed⟩ := hcloses
  have hsame (hsession : x'.gateway.session? r = x.gateway.session? r) : False := by
    cases hs.symm.trans (hsession.symm.trans hs')
    exact hopen hclosed
  cases v with
  | act a =>
      obtain rfl := Act.isStepOf_iff.mp hown
      obtain ⟨w, w', hw, -, hturn, -⟩ := h.turn hstep
      cases hturn with
      | finish hdesk | sleep _ hdesk => exact (hsame (session?_of_desk hdesk)).elim
      | sweep _ _ hdesk =>
          have hr : r ∈ x.gateway.idlers w.idleTimeout := by
            by_contra hbusy
            exact hsame ((session?_of_desk hdesk).trans (session?_retireEach hbusy))
          refine cancels_of_state ((waiterState_of_desk hdesk).trans ?_)
          exact waiterState_retireEach hr hs hopen he
  | look =>
      obtain ⟨w, -, -, -, rfl⟩ := step_look hstep
      exact (hsame rfl).elim
  | recheck =>
      obtain ⟨k, id, ids, g', k', -, -, hrechecked, rfl⟩ := step_recheck hstep
      cases hrechecked <;> exact (hsame rfl).elim
  | discharge =>
      obtain ⟨k, q, rest, -, -, -, rfl⟩ := step_discharge hstep
      by_cases hq : r = q
      · subst hq
        exact cancels_of_state (waiterState_shut hs hopen he)
      · refine (hsame ?_).elim
        refine session?_shut.trans ?_
        simp only [if_neg hq]
        exact Option.map_id_apply
  | rest =>
      obtain ⟨k, -, -, -, rfl⟩ := step_rest hstep
      exact (hsame (session?_of_desk desk_rearm)).elim

theorem taken_step (hr : r ∈ x.taken) (hstep : x.step p v = some x') :
    r ∈ x'.taken ∨ ∀ s, x'.gateway.session? r = some s → s.status = .closed := by
  cases v with
  | act a =>
      obtain ⟨-, -, hround⟩ := step_act hstep
      left
      rwa [taken, hround]
  | look =>
      obtain ⟨w, -, hround, -⟩ := step_look hstep
      rw [taken, hround] at hr
      cases hr
  | recheck =>
      obtain ⟨k, id, ids, g', k', hk, -, hrechecked, rfl⟩ := step_recheck hstep
      rw [taken_of_round hk] at hr
      cases hrechecked with
      | gone => exact .inl (List.mem_append_left _ hr)
      | kept => exact .inl hr
  | discharge =>
      obtain ⟨k, q, rest, hk, -, htaken, rfl⟩ := step_discharge hstep
      rw [taken_of_round hk, htaken, List.mem_cons] at hr
      rcases hr with rfl | hr
      · exact .inr fun s hs => closed_shut (g := x.gateway) hs
      · exact .inl hr
  | rest =>
      obtain ⟨k, hk, -, htaken, rfl⟩ := step_rest hstep
      rw [taken_of_round hk, htaken] at hr
      cases hr

theorem IsEvicted.step (h : IsEvicted r x) (hages : x.gateway.Ages x'.gateway)
    (hstep : x.step p v = some x') : IsEvicted r x' := by
  obtain ⟨s, hs, hr | hclosed⟩ := h
  · obtain ⟨s', hs', -⟩ := hages r s hs
    exact ⟨s', hs', (taken_step hr hstep).imp_right fun hclosed => hclosed s' hs'⟩
  · obtain ⟨s', hs', hage⟩ := hages r s hs
    exact ⟨s', hs', .inr (hage.closed hclosed)⟩

theorem Moment.onTime_cases (h : Moment.onTime p ⟨x, .act a, x'⟩ = true)
    (hw : x.gateway.sweeper? p = some w) (hwork : w.finished = false) : a.elapsed = 0 ∨
      x.round = none ∧ ∃ t, w.wakesAt = some t ∧ x.gateway.now + a.elapsed ≤ t := by
  simpa [Moment.onTime, hw, hwork, Option.any_eq_true] using h

theorem Timely.other (h : Timely T i started since w x) (hs : Sound p T i x)
    (hw : x.gateway.sweeper? p = some w) (hwork : w.finished = false)
    (hstep : x.gateway.perform a = some x'.gateway) (hround : x'.round = x.round)
    (htime : Moment.onTime p ⟨x, .act a, x'⟩ = true) : Timely T i started since w x' := by
  have hnow := now_perform hs.enlisted.nodup hstep
  have hwithin {time : Nanos} {ids : List String} (h : x.gateway.Within T started time ids)
      (hle : time ≤ x.gateway.now) : x'.gateway.Within T started time ids :=
    h.other hle hs.enlisted.nodup hs.numbered hstep
  have hpast : since ≤ x'.gateway.now := hnow ▸ Nat.le_add_right_of_le h.past
  rcases Moment.onTime_cases htime hw hwork with hzero | ⟨hrest, t, hwakes, hlimit⟩
  · rw [hzero, Nat.add_zero] at hnow
    refine ⟨hpast, hnow ▸ h.recent, hwithin h.within h.past, h.wakes, fun hawake => ?_,
      fun k hk => ?_⟩
    · exact (h.awake hawake).trans hnow.symm
    · exact hnow ▸ hwithin (h.suspects k (hround ▸ hk)) (Nat.le_refl _)
  · refine ⟨hpast, ?_, hwithin h.within h.past, h.wakes, fun hawake => ?_, fun k hk => ?_⟩
    · rw [hnow, ← h.wakes t hwakes]
      exact hlimit
    · cases hawake.symm.trans hwakes
    · cases hrest.symm.trans (hround.symm.trans hk)

theorem within_rechecked {id : String} {ids : List String} {g g' : Gateway} {k k' : Round}
    (h : g.Within T started g.now (id :: ids)) (hg : g.Enlisted) (htimeout : k.timeout = T)
    (hrechecked : Rechecked id ids k g g' k') : g'.Within T started g.now k'.suspects := by
  subst htimeout
  intro r s hr hs
  cases hrechecked with
  | @gone q t hfind hidle =>
      obtain ⟨hr, hne⟩ := List.mem_filter.mp hr
      refine (h r s hr hs).imp_right fun hid => (List.mem_cons.mp hid).resolve_left ?_
      rintro rfl
      cases (hg.find? hr hs).symm.trans hfind
      simp at hne
  | kept hkept =>
      rcases h r s hr hs with hle | hid
      · exact .inl hle
      · rcases List.mem_cons.mp hid with rfl | hid
        · have hrecent : g.now - s.lastActivity ≤ k.timeout :=
            Nat.le_of_not_lt (of_decide_eq_false (hkept r s (hg.find? hr hs)))
          exact .inl (Nat.le_trans (Nat.sub_le_iff_le_add'.mp hrecent) (Nat.le_max_left ..))
        · exact .inr hid

theorem Timely.renew (h : x'.gateway.Within T started x.gateway.now []) (hg : Stills x.gateway
    x'.gateway) (hround : x'.round = none)
    (hwakes : ∀ t, w'.wakesAt = some t → t = x.gateway.now + i) :
    Timely T i started x.gateway.now w' x' where
  past := Nat.le_of_eq hg.now.symm
  recent := hg.now ▸ Nat.le_add_right ..
  within := h
  wakes := hwakes
  awake _ := hg.now.symm
  suspects k hk := by cases hround.symm.trans hk

theorem Timely.sweep (h : Timely T i started since w x) (hg : Stills x.gateway x'.gateway)
    (hsuspects : ∀ k, x'.round = some k → x'.gateway.Within T started x.gateway.now k.suspects) :
    Timely T i started since w x' where
  past := hg.now ▸ h.past
  recent := hg.now ▸ h.recent
  within := h.within.stills hg
  wakes := h.wakes
  awake hawake := (h.awake hawake).trans hg.now.symm
  suspects k hk := hg.now ▸ hsuspects k hk

theorem Timely.own (h : ∀ w, x.gateway.sweeper? p = some w → w.finished = false →
    ∃ since, Timely T i started since w x) (hs : Sound p T i x) (hown : v.isOwn p = true)
    (hstep : x.step p v = some x') (hw' : x'.gateway.sweeper? p = some w')
    (hwork : w'.finished = false) : ∃ since, Timely T i started since w' x' := by
  obtain ⟨-, hstills, -⟩ := hs.own hown hstep
  cases v with
  | act a =>
      obtain rfl := Act.isStepOf_iff.mp hown
      obtain ⟨w, w₁, hw, hw₁, hturn, -, hround⟩ := hs.turn hstep
      cases hw₁.symm.trans hw'
      obtain ⟨hT, hinterval⟩ := hs.sweeper hw
      cases hturn with
      | finish => cases hwork
      | sleep hawake =>
          obtain ⟨since, h⟩ := h w hw hwork
          have hwithin := h.awake hawake ▸ h.within
          refine ⟨_, .renew (hwithin.stills hstills) hstills hround ?_⟩
          rintro t ⟨⟩
          rw [hinterval]
      | sweep _ _ hdesk =>
          refine ⟨_, .renew (within_evictIdle.of_desk (hT ▸ hdesk)) hstills hround ?_⟩
          rintro t ⟨⟩
  | look =>
      obtain ⟨w, hw, -, -, rfl⟩ := step_look hstep
      cases hw.symm.trans hw'
      obtain ⟨since, h⟩ := h _ hw hwork
      refine ⟨since, h.sweep hstills fun k hk => ?_⟩
      cases hk
      exact (hs.sweeper hw).1 ▸ within_idleIds
  | recheck =>
      obtain ⟨k, id, ids, g', k', hk, hids, hrechecked, rfl⟩ := step_recheck hstep
      have hw : x.gateway.sweeper? p = some w' := by
        cases hrechecked <;> exact hw'
      obtain ⟨since, h⟩ := h w' hw hwork
      refine ⟨since, h.sweep hstills fun k₁ hk₁ => ?_⟩
      cases hk₁
      have hsuspects := h.suspects k hk
      rw [hids] at hsuspects
      exact within_rechecked hsuspects hs.enlisted (hs.timeout k hk) hrechecked
  | discharge =>
      obtain ⟨k, r, rest, hk, -, -, rfl⟩ := step_discharge hstep
      have hw : x.gateway.sweeper? p = some w' := sweeper?_of_inner inner_discharge ▸ hw'
      obtain ⟨since, h⟩ := h w' hw hwork
      refine ⟨since, h.sweep hstills fun k₁ hk₁ => ?_⟩
      cases hk₁
      exact (h.suspects k hk).stills hstills
  | rest =>
      obtain ⟨k, hk, hids, -, rfl⟩ := step_rest hstep
      cases hw : x.gateway.sweeper? p with
      | none =>
          rw [rearm, hw] at hw'
          cases hw.symm.trans hw'
      | some w =>
          cases (sweeper?_rearm hw).symm.trans hw'
          obtain ⟨since, h⟩ := h w hw hwork
          exact ⟨_, .renew ((hids ▸ h.suspects k hk).stills hstills) hstills rfl (by rintro t ⟨⟩)⟩

structure Sweeps (p : ProcessId) (T i : Nanos) (base : Gateway) (past : List AgentGateway.Moment)
    (xs : List Moment) (x : Sweeping) : Prop where
  sound : Sound p T i x
  follows : base.Follows x.gateway
  dated : x.gateway.Dated (past ++ xs.filterMap Moment.act?)
  evicted : ∀ y ∈ xs, ∀ r, Moment.Evicts p r y → IsEvicted r x
  timely : (∀ y ∈ xs, Moment.onTime p y = true) → ∀ w, x.gateway.sweeper? p = some w →
    w.finished = false → ∃ since, Timely T i base.now since w x

theorem Sweeps.evicted_snoc (h : Sweeps p T i base past xs x)
    (hages : x.gateway.Ages x'.gateway) (hstep : x.step p v = some x') :
    ∀ y ∈ xs ++ [⟨x, v, x'⟩], ∀ r, Moment.Evicts p r y → IsEvicted r x' := by
  intro y hy r hevicts
  rcases List.mem_append.mp hy with hy | hy
  · exact (h.evicted y hy r hevicts).step hages hstep
  · cases List.mem_singleton.mp hy
    exact (of_evicts h.sound hstep hevicts).1

theorem Sweeps.step (h : Sweeps p T i base past xs x) (hstep : x.step p v = some x') :
    Sweeps p T i base past (xs ++ [⟨x, v, x'⟩]) x' := by
  have hbefore (htime : ∀ y ∈ xs ++ [⟨x, v, x'⟩], Moment.onTime p y = true) :=
    h.timely fun y hy => htime y (List.mem_append_left _ hy)
  have hsound : Sound p T i x' ∧ x.gateway.Ages x'.gateway := by
    cases v with
    | act a => exact h.sound.act hstep
    | look | recheck | discharge | rest =>
        obtain ⟨hsound, -, hages⟩ := h.sound.own rfl hstep
        exact ⟨hsound, hages⟩
  obtain ⟨hsound, hages⟩ := hsound
  have hrest : base.Follows x'.gateway ∧
      x'.gateway.Dated (past ++ (xs ++ [(⟨x, v, x'⟩ : Moment)]).filterMap Moment.act?) := by
    rw [filterMap_snoc]
    cases v with
    | act a =>
        obtain ⟨-, hperform, -⟩ := step_act hstep
        rw [← List.append_assoc]
        exact ⟨h.follows.act h.sound.enlisted.nodup h.sound.numbered hperform,
          h.dated.perform h.sound.enlisted.nodup hperform⟩
    | look | recheck | discharge | rest =>
        obtain ⟨-, hstills, -⟩ := h.sound.own rfl hstep
        rw [Moment.act?, Option.toList_none, List.append_nil]
        exact ⟨h.follows.stills hstills, hstills.dated h.dated⟩
  refine ⟨hsound, hrest.1, hrest.2, h.evicted_snoc hages hstep, fun htime w' hw' hwork => ?_⟩
  cases hown : v.isOwn p with
  | true => exact Timely.own (hbefore htime) h.sound hown hstep hw' hwork
  | false =>
      cases v with
      | act a =>
          obtain ⟨-, hperform, hround⟩ := step_act hstep
          have ha : a ≠ .control p := by
            rintro rfl
            exact absurd hown (ne_true_of_eq_false · (Act.isStepOf_iff.mpr rfl))
          have hw := sweeper?_eq (h.sound.process?_other ha hperform (process?_of_sweeper? hw'))
          obtain ⟨since, htimely⟩ := hbefore htime w' hw hwork
          exact ⟨since, htimely.other h.sound hw hwork hperform hround
            (htime _ (List.mem_append_right _ (List.mem_singleton_self _)))⟩
      | look | recheck | discharge | rest => cases hown

theorem Sweeps.way {first : Sweeping} (h : Sweeps p T i base past [] first)
    (hway : Way (Sweeping.step p) first xs x) : Sweeps p T i base past xs x := by
  induction hway with
  | nil => exact h
  | snoc _ hstep ih => exact ih.step hstep

section Run

variable {g₀ g₁ g₂ g g' : Gateway} {ms : List AgentGateway.Moment}

theorem Sound.start (h₀ : g₀.IsNew) (hrun : Run g₀ past g₁) (hp : g₁.sweeper? p = some w)
    (hT : w.idleTimeout = T) (hi : w.interval = i) : Sound p T i { gateway := g₁ } where
  enlisted := (hrun.registered h₀).toEnlisted
  numbered := hrun.numbered h₀.numbered
  cleared := .run h₀ hrun
  kept := hrun.kept h₀
  begun := Nat.not_le.mp fun hge => by
    cases (hrun.numbered h₀.numbered p hge).symm.trans (process?_of_sweeper? hp)
  process z hz := by
    cases hz.symm.trans (process?_of_sweeper? hp)
    exact ⟨w, rfl, hT, hi⟩
  timeout := by rintro k ⟨⟩

theorem Sweeps.start (h₀ : g₀.IsNew) (hpast : Run g₀ past g₁)
    (hstart : g₁.startSweeper T i = (p, g₂)) :
    Sweeps p T i g₂ past [] { gateway := g₂ } := by
  obtain ⟨rfl, rfl⟩ := Prod.mk.inj hstart
  have hn := hpast.numbered h₀.numbered
  have hrun : Run g₀ (past ++ [⟨g₁, .startSweeper T i, (g₁.startSweeper T i).2⟩])
      (g₁.startSweeper T i).2 := hpast.snoc rfl
  have hsweeper : (g₁.startSweeper T i).2.sweeper? (g₁.startSweeper T i).1 =
      some { idleTimeout := T, interval := i, token := g₁.nextToken } :=
    sweeper?_eq ((process?_spawn (g := g₁.takeToken.2) hn).trans (if_pos rfl))
  have hstills : Stills g₁ (g₁.startSweeper T i).2 := stills_of_desk desk_spawn
  constructor
  case sound => exact .start h₀ hrun hsweeper rfl rfl
  case follows => exact ⟨Nat.le_refl _, fun r s hr _ => .inl hr⟩
  case dated =>
    rw [List.filterMap_nil, List.append_nil]
    exact hstills.dated (hpast.dated h₀)
  case evicted => exact List.forall_mem_nil _
  case timely =>
    intro _ w hw _
    cases hsweeper.symm.trans hw
    exact ⟨_, .renew (fun r s _ _ => .inl (Nat.le_max_right ..)) (stills_of_desk rfl) rfl
      (by rintro t ⟨⟩)⟩

theorem Sweeps.lastStir? {s : Session} {r : SessionRef}
    (h : Sweeps p T i base past xs x) (hs : x.gateway.session? r = some s) :
    AgentGateway.lastStir? r (past ++ xs.filterMap Moment.act?) = some s.lastActivity := by
  rw [← h.dated r, hs, Option.map_some]

end Run

section Alone

variable {g : Gateway} {ys : List Moment}

theorem Alone.refl (x : Sweeping) : Alone p x [] x := ⟨.nil, List.forall_mem_nil _, rfl⟩

theorem Alone.cons {x₁ : Sweeping} (hstep : x.step p v = some x₁) (hown : v.isOwn p = true)
    (hnow : x₁.gateway.now = x.gateway.now) (h : Alone p x₁ ys x') :
    Alone p x (⟨x, v, x₁⟩ :: ys) x' :=
  ⟨(Way.single hstep).append h.way, List.forall_mem_cons.mpr ⟨hown, h.own⟩, h.now.trans hnow⟩

theorem alone_round (ids : List String) (hk : x.round = some k) (hids : k.suspects = ids)
    (hw : x.gateway.sweeper? p = some w) : ∃ ys x', Alone p x ys x' ∧ x'.round = none ∧
      x'.gateway.sweeper? p = some { w with wakesAt := none } := by
  obtain ⟨g, round⟩ := x
  obtain rfl : round = some k := hk
  induction ids generalizing g k with
  | nil =>
      obtain ⟨timeout, suspects, taken⟩ := k
      obtain rfl : suspects = [] := hids
      induction taken generalizing g with
      | nil =>
          have hnow : (g.rearm p).now = g.now := congrArg Desk.now desk_rearm
          exact ⟨_, _, .cons (v := .rest) rfl rfl hnow (.refl _), rfl, sweeper?_rearm hw⟩
      | cons r taken ih =>
          obtain ⟨ys, x', halone, hround, hw'⟩ :=
            ih (g.discharge r .idle) ((sweeper?_of_inner inner_discharge).trans hw)
          exact ⟨_, x', halone.cons (v := .discharge) rfl rfl now_shut, hround, hw'⟩
  | cons id ids ih =>
      have hstep : ∃ x', step p ⟨g, some k⟩ .recheck = some x' := by
        simp [step, Round.recheck, hids]
      obtain ⟨x', hstep⟩ := hstep
      obtain ⟨k₁, id', ids', g', k', hk₁, hids', hrechecked, rfl⟩ := step_recheck hstep
      cases hk₁
      obtain ⟨rfl, rfl⟩ := List.cons.inj (hids.symm.trans hids')
      have hsame : k'.suspects = ids ∧ g'.sweeper? p = g.sweeper? p ∧ g'.now = g.now := by
        cases hrechecked <;> exact ⟨rfl, rfl, rfl⟩
      obtain ⟨hsuspects, hsweeper, hnow⟩ := hsame
      obtain ⟨ys, x', halone, hround, hw'⟩ := ih hsuspects g' (hsweeper.trans hw)
      exact ⟨_, x', halone.cons hstep rfl hnow, hround, hw'⟩

theorem control?_awake (hw : g.sweeper? p = some w) (hwork : w.finished = false)
    (hdue : ∀ t, w.wakesAt = some t → t ≤ g.now) : ∃ g', g.control? p = some g' := by
  have hsweep : ∃ z, g.sweep? p w = some z := by
    unfold sweep?
    rw [hwork]
    split
    · contradiction
    · split
      · exact ⟨_, rfl⟩
      · split
        · exact ⟨_, rfl⟩
        · rename_i t hwakes
          rw [if_pos (hdue t hwakes)]
          exact ⟨_, rfl⟩
  obtain ⟨z, hz⟩ := hsweep
  exact ⟨z.2.setProcess p (.sweeper z.1), by simp [control?, process?_of_sweeper? hw, hz]⟩

theorem step_control (h : g.control? p = some g') :
    step p ⟨g, none⟩ (.act (.control p)) = some ⟨g', none⟩ := by
  simp [step, perform, h]

theorem alone_unarmed (hw : g.sweeper? p = some w) (hwork : w.finished = false)
    (hnone : w.wakesAt = none) (hi : 0 < w.interval) :
    ∃ ys x', Alone p ⟨g, none⟩ ys x' ∧ (∀ y ∈ ys, y.move = .act (.control p)) ∧ IsQuiet p x' := by
  obtain ⟨g', hcontrol⟩ := control?_awake hw hwork (by simp [hnone])
  obtain ⟨w', hw', hturn⟩ := turn_control? hw hcontrol
  have hnow := hturn.stills.now
  refine ⟨_, _, .cons (step_control hcontrol) (Act.isStepOf_iff.mpr rfl) hnow (.refl _), by simp,
    rfl, w', hw', ?_⟩
  cases hturn with
  | finish => exact .inl rfl
  | sleep => exact .inr ⟨_, rfl, hnow ▸ Nat.lt_add_of_pos_right hi⟩
  | sweep hwakes => cases hnone.symm.trans hwakes

theorem alone_resting (hw : g.sweeper? p = some w) (hwork : w.finished = false)
    (hi : 0 < w.interval) :
    ∃ ys x', Alone p ⟨g, none⟩ ys x' ∧ (∀ y ∈ ys, y.move = .act (.control p)) ∧ IsQuiet p x' := by
  cases hwakes : w.wakesAt with
  | none => exact alone_unarmed hw hwork hwakes hi
  | some t =>
      by_cases hlate : g.now < t
      · exact ⟨[], _, .refl _, List.forall_mem_nil _, rfl, w, hw, .inr ⟨t, hwakes, hlate⟩⟩
      · have hdue : ∀ t', w.wakesAt = some t' → t' ≤ g.now := by
          intro t' hwakes'
          cases hwakes.symm.trans hwakes'
          exact Nat.le_of_not_lt hlate
        obtain ⟨g', hcontrol⟩ := control?_awake hw hwork hdue
        obtain ⟨w', hw', hturn⟩ := turn_control? hw hcontrol
        have hfirst {ys : List Moment} {x' : Sweeping} (h : Alone p ⟨g', none⟩ ys x') :=
          h.cons (step_control hcontrol) (Act.isStepOf_iff.mpr rfl) hturn.stills.now
        cases hturn with
        | finish => exact ⟨_, _, hfirst (.refl _), by simp, rfl, _, hw', .inl rfl⟩
        | sleep hnone => cases hnone.symm.trans hwakes
        | sweep =>
            obtain ⟨ys, x', halone, hcontrols, hquiet⟩ := alone_unarmed hw' hwork rfl hi
            exact ⟨_, x', hfirst halone, List.forall_mem_cons.mpr ⟨rfl, hcontrols⟩, hquiet⟩

theorem alone_quiet (hw : x.gateway.sweeper? p = some w) (hwork : w.finished = false)
    (hi : 0 < w.interval) : ∃ ys x', Alone p x ys x' ∧
      (x.round = none → ∀ y ∈ ys, y.move = .act (.control p)) ∧ IsQuiet p x' := by
  obtain ⟨g, round⟩ := x
  cases round with
  | none =>
      obtain ⟨ys, x', halone, hcontrols, hquiet⟩ := alone_resting hw hwork hi
      exact ⟨ys, x', halone, fun _ => hcontrols, hquiet⟩
  | some k =>
      obtain ⟨ys, ⟨g', round⟩, hround, rfl, hw'⟩ := alone_round k.suspects rfl rfl hw
      obtain ⟨zs, x', halone, -, hquiet⟩ := alone_unarmed hw' hwork rfl hi
      refine ⟨ys ++ zs, x', ⟨hround.way.append halone.way, fun y hy => ?_,
        halone.now.trans hround.now⟩, nofun, hquiet⟩
      exact (List.mem_append.mp hy).elim (hround.own y) (halone.own y)

end Alone

/-- A sweeper evicts a session only when more than the timeout has passed since it was last opened,
heard or touched. For as long as it goes on, and the clock does not go past the times at which it
wakes, no live session was last active longer ago than the timeout and an interval; one that was
there when the sweeper started, and was idle for too long by then, is given an interval from there.
Those that are evicted are closed in the same sweep, and whoever waits for a response on one of
them learns that none will come. The clock has not to wait for the sweeper for ever, which can always
go to sleep by steps of its own. -/
structure InTime (p : ProcessId) (T i : Nanos) (base : Gateway) (past : List AgentGateway.Moment)
    (xs : List Moment) (x : Sweeping) : Prop where
  early : ∀ before y after r, xs = before ++ y :: after → Moment.Evicts p r y →
    ∃ t, lastStir? r (past ++ before.filterMap Moment.act?) = some t ∧ t + T < y.before.gateway.now
  late : (∀ y ∈ xs, Moment.onTime p y = true) → (x.gateway.sweeper? p).any (!·.finished) = true →
    ∀ r ∈ x.gateway.live, ∃ t, lastStir? r (past ++ xs.filterMap Moment.act?) = some t ∧
      x.gateway.now ≤ max (t + T) base.now + i ∧ (r ∉ base.live → x.gateway.now ≤ t + T + i)
  closed : x.round = none → ∀ y ∈ xs, ∀ r, Moment.Evicts p r y →
    (∃ s, x.gateway.session? r = some s ∧ s.status = .closed ∧ s.pending = []) ∧
    ∀ q h, x.gateway.held? q = some h → h.session = r → x.gateway.waiterState h.ticket ≠ .waiting
  cancelled : ∀ y ∈ xs, ∀ r s, Moment.Closes p r s y →
    ∀ e ∈ s.pending, y.after.gateway.Cancels e.ticket
  released : ∀ y ∈ xs, ∀ r s, Moment.Evicts p r y → y.after.round = none →
    y.before.gateway.session? r = some s → ∀ e ∈ s.pending, y.after.gateway.Cancels e.ticket
  prompt : 0 < i → (x.gateway.sweeper? p).any (!·.finished) = true → ∃ ys x', Alone p x ys x' ∧
    (x.round = none → ∀ y ∈ ys, y.move = .act (.control p)) ∧ IsQuiet p x'

section Run

variable {g₀ g₁ g₂ g : Gateway} {ms : List AgentGateway.Moment}

theorem way_of_run (hr : Run g₂ ms g) :
    Way (step p) { gateway := g₂ } (ms.map Moment.ofRun) { gateway := g } := by
  induction hr with
  | nil => exact .nil
  | snoc _ hstep ih =>
      rw [List.map_append]
      exact ih.snoc (by simp [step, hstep])

theorem inTime_of_way (h₀ : g₀.IsNew) (hpast : Run g₀ past g₁)
    (hstart : g₁.startSweeper T i = (p, g₂)) (hway : Way (step p) { gateway := g₂ } xs x) :
    InTime p T i g₂ past xs x := by
  have hsweeps {xs : List Moment} {x : Sweeping} (hway : Way (step p) { gateway := g₂ } xs x) :
      Sweeps p T i g₂ past xs x := (Sweeps.start h₀ hpast hstart).way hway
  have hmoment (y : Moment) (hy : y ∈ xs) :
      Sound p T i y.before ∧ y.before.step p y.move = some y.after := by
    obtain ⟨before, after, hxs⟩ := List.append_of_mem hy
    obtain ⟨hway, hstep⟩ := hway.split hxs
    exact ⟨(hsweeps hway).sound, hstep⟩
  constructor
  case early =>
    intro before y after r hxs hevicts
    obtain ⟨hway, hstep⟩ := hway.split hxs
    obtain ⟨-, s, hs, hidle⟩ := of_evicts (hsweeps hway).sound hstep hevicts
    exact ⟨_, (hsweeps hway).lastStir? hs, Nat.add_lt_of_lt_sub' (of_decide_eq_true hidle)⟩
  case late =>
    intro htime hwork r hr
    obtain ⟨w, hw, hwork⟩ := (Option.any_eq_true ..).mp hwork
    obtain ⟨since, htimely⟩ := (hsweeps hway).timely htime w hw (by simpa using hwork)
    have hs := List.getElem?_eq_getElem ((hsweeps hway).sound.enlisted.opened r hr)
    have hsince := (htimely.within r _ hr hs).resolve_right List.not_mem_nil
    have hlate := Nat.le_trans htimely.recent (Nat.add_le_add_right hsince i)
    refine ⟨_, (hsweeps hway).lastStir? hs, hlate, fun hnew => ?_⟩
    have hopened := ((hsweeps hway).follows.live r _ hr hs).resolve_left hnew
    rwa [Nat.max_eq_left (Nat.le_add_right_of_le hopened)] at hlate
  case closed =>
    intro hround y hy r hevicts
    obtain ⟨s, hs, htaken | hclosed⟩ := (hsweeps hway).evicted y hy r hevicts
    · rw [taken, hround] at htaken
      cases htaken
    · have hsound := (hsweeps hway).sound
      refine ⟨⟨s, hs, hclosed, hsound.cleared.vacant r s hs hclosed⟩, ?_⟩
      rintro q h hh rfl hwaiting
      exact hsound.kept.closed hh ⟨s, hs, hclosed⟩ (waits_of_state hwaiting)
  case cancelled =>
    intro y hy r s hcloses e he
    obtain ⟨hsound, hstep⟩ := hmoment y hy
    exact of_closes hsound hstep hcloses he
  case released =>
    intro y hy r s hevicts hround hs e he
    obtain ⟨hsound, hstep⟩ := hmoment y hy
    obtain ⟨s', hs', htaken | hclosed⟩ := (of_evicts hsound hstep hevicts).1
    · rw [taken, hround] at htaken
      cases htaken
    · have hopen : s.status ≠ .closed := fun hc => by
        rw [hsound.cleared.vacant r s hs hc] at he
        cases he
      exact of_closes hsound hstep ⟨hevicts.own, hs, hopen, s', hs', hclosed⟩ he
  case prompt =>
    intro hi hwork
    obtain ⟨w, hw, hwork⟩ := (Option.any_eq_true ..).mp hwork
    exact alone_quiet hw (by simpa using hwork) ((hsweeps hway).sound.sweeper hw |>.2 ▸ hi)

/-- So it is on every run, and also on every way on which the sweeps are taken bit by bit. -/
theorem evicts_in_time (h₀ : g₀.IsNew) (hpast : Run g₀ past g₁)
    (hstart : g₁.startSweeper T i = (p, g₂)) :
    (∀ ms g, Run g₂ ms g → InTime p T i g₂ past (ms.map Moment.ofRun) { gateway := g }) ∧
    ∀ xs x, Way (step p) { gateway := g₂ } xs x → InTime p T i g₂ past xs x :=
  ⟨fun _ _ hrun => inTime_of_way h₀ hpast hstart (way_of_run hrun),
    fun _ _ hway => inTime_of_way h₀ hpast hstart hway⟩

def idling : List Act :=
  [.openSession ["a"] "owner" .server {}, .register 0 (.number 7) "ping"]

/-- A second session is opened. A sweep finds nothing to do, and then there is another one, before
which the second session is touched. -/
def touching : List Act :=
  [.openSession ["b"] "owner" .server {}, .control 0, .tick 3, .control 0, .control 0, .tick 3,
    .touch 1, .control 0, .control 0]

/-- The same bit by bit, where the second session is touched in the course of a sweep. -/
def rechecking : List Move :=
  [.act (.openSession ["b"] "owner" .server {}), .act (.control 0), .act (.tick 3), .look, .rest,
    .act (.control 0), .act (.tick 3), .look, .act (.touch 1), .recheck, .recheck, .discharge,
    .rest, .act (.control 0)]

def evictsFirst (j k : Nat) (xs : List Moment) (x : Sweeping) : Bool :=
  (∀ y ∈ xs, Moment.onTime 0 y = true) && x.round.isNone &&
  (x.gateway.sweeper? 0).any (!·.finished) && x.gateway.live = [1] &&
  (xs[j]?.any fun y => y.move.isOwn 0 && 0 ∈ y.before.gateway.live && 0 ∉ y.after.gateway.live) &&
  xs[k]?.any fun y => y.move.isOwn 0 &&
    (y.before.gateway.session? 0).any (fun s =>
      s.status ≠ .closed && s.pending.any (·.ticket = 0)) &&
    (y.after.gateway.session? 0).any (·.status = .closed)

structure EvictedFirst (base : Gateway) (past : List AgentGateway.Moment) (xs : List Moment)
    (x : Sweeping) : Prop where
  evicted : ∃ before y after t, xs = before ++ y :: after ∧ Moment.Evicts 0 0 y ∧
    lastStir? 0 (past ++ before.filterMap Moment.act?) = some t ∧ t + 5 < y.before.gateway.now
  cancelled : ∃ y ∈ xs, y.after.gateway.Cancels 0
  closed : ∃ s, x.gateway.session? 0 = some s ∧ s.status = .closed ∧ s.pending = []
  kept : x.gateway.live = [1] ∧ 1 ∉ base.live
  recent : ∃ t, lastStir? 1 (past ++ xs.filterMap Moment.act?) = some t ∧
    x.gateway.now ≤ t + 5 + 3
  prompt : ∃ ys x', Alone 0 x ys x' ∧ IsQuiet 0 x'

theorem evicts_in_time_touched : ∃ (past : List AgentGateway.Moment) (g₁ g₂ : Gateway)
    (ms : List AgentGateway.Moment) (g : Gateway) (xs : List Moment) (x : Sweeping),
    Run (Gateway.new {} []) past g₁ ∧ g₁.startSweeper 5 3 = (0, g₂) ∧
    Run g₂ ms g ∧ EvictedFirst g₂ past (ms.map Moment.ofRun) { gateway := g } ∧
    Way (step 0) { gateway := g₂ } xs x ∧ EvictedFirst g₂ past xs x := by
  have h₀ : (Gateway.new {} []).IsNew := ⟨{}, [], 0, rfl⟩
  have hall : (((Gateway.new {} []).replay idling).any fun z =>
      (z.2.startSweeper 5 3).1 = 0 && 1 ∉ (z.2.startSweeper 5 3).2.live &&
        ((z.2.startSweeper 5 3).2.replay touching).any (fun w =>
          evictsFirst 7 7 (w.1.map Moment.ofRun) { gateway := w.2 }) &&
        (Way.replay (step 0) rechecking { gateway := (z.2.startSweeper 5 3).2 }).any fun w =>
          evictsFirst 9 11 w.1 w.2) = true := by
    decide +kernel
  obtain ⟨⟨past, g₁⟩, hpast, hall⟩ := (Option.any_eq_true ..).mp hall
  simp only [Bool.and_eq_true, decide_eq_true_eq] at hall
  obtain ⟨⟨⟨hp, hnew⟩, htouching⟩, hrechecking⟩ := hall
  obtain ⟨⟨ms, g⟩, hms, htouching⟩ := (Option.any_eq_true ..).mp htouching
  obtain ⟨⟨xs, x⟩, hxs, hrechecking⟩ := (Option.any_eq_true ..).mp hrechecking
  have hrun := Run.of_replay hpast
  have hstart : g₁.startSweeper 5 3 = (0, (g₁.startSweeper 5 3).2) := Prod.ext hp rfl
  obtain ⟨hruns, hways⟩ := evicts_in_time h₀ hrun hstart
  have hfirst {j k : Nat} {xs : List Moment} {x : Sweeping}
      (h : InTime 0 5 3 (g₁.startSweeper 5 3).2 past xs x) (hseen : evictsFirst j k xs x = true) :
      EvictedFirst (g₁.startSweeper 5 3).2 past xs x := by
    simp only [evictsFirst, Bool.and_eq_true, decide_eq_true_eq, Option.isNone_iff_eq_none,
      Option.any_eq_true] at hseen
    obtain ⟨⟨⟨⟨⟨htime, hround⟩, hwork⟩, hlive⟩, y, hy, ⟨hown, hr⟩, hr'⟩, z, hz, ⟨hown', s, hs,
      hopen, hpending⟩, s', hs', hclosed⟩ := hseen
    have hwork := (Option.any_eq_true ..).mpr hwork
    obtain ⟨e, he, hticket⟩ := List.any_eq_true.mp hpending
    have hevicts : Moment.Evicts 0 0 y := ⟨hown, hr, hr'⟩
    have hmem := List.mem_of_getElem? hy
    obtain ⟨t, ht, hidle⟩ := h.early _ y _ 0 (take_append_cons_drop hy).symm hevicts
    obtain ⟨t', ht', -, hrecent⟩ := h.late htime hwork 1 (by simp [hlive])
    obtain ⟨ys, x', halone, -, hquiet⟩ := h.prompt (by decide) hwork
    have hcancelled := h.cancelled z (List.mem_of_getElem? hz) 0 s
      ⟨hown', hs, hopen, s', hs', hclosed⟩ e he
    exact ⟨⟨_, y, _, t, (take_append_cons_drop hy).symm, hevicts, ht, hidle⟩,
      ⟨z, List.mem_of_getElem? hz, of_decide_eq_true hticket ▸ hcancelled⟩,
      (h.closed hround y hmem 0 hevicts).1, ⟨hlive, hnew⟩, ⟨t', ht', hrecent hnew⟩,
      ys, x', halone, hquiet⟩
  exact ⟨past, g₁, _, ms, g, xs, x, hrun, hstart, .of_replay hms,
    hfirst (hruns ms g (.of_replay hms)) htouching, .of_replay hxs,
    hfirst (hways xs x (.of_replay hxs)) hrechecking⟩

end Run

end Sweeping

end AgentGateway
