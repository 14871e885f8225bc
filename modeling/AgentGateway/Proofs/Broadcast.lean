import AgentGateway.Proofs.Isolation
import AgentGateway.Proofs.Kindred
import AgentGateway.Proofs.Loops
import AgentGateway.Proofs.Way
import Mathlib.Algebra.BigOperators.Group.Finset.Basic
/-!
One notification to many sessions. A step of the process tries all sessions that are still to be
told, or closes all that turned out to be lost, by their ids. It may as well do so one session after
the other, in any order, with anything else in between.
-/

namespace AgentGateway

namespace Broadcast

/-- An act upon the gateway, a step of the process among them, or a part of such a step. -/
inductive Move where
  | act (a : Act)
  | tell (r : SessionRef)
  | part (r : SessionRef)

def Move.isOwn (p : ProcessId) : Move → Bool
  | .act a => a.isStepOf p
  | _ => true

end Broadcast

namespace Notice

def pending (n : Notice) : List (SessionRef × Delivery) :=
  match n.stage with
  | .sending pending => pending
  | _ => []

def awaited (n : Notice) : List SessionRef := n.pending.map Prod.fst

def sending (pending : List (SessionRef × Delivery)) (n : Notice) : Notice :=
  { n with stage := .sending pending }

def tried (r : SessionRef) (state : Gateway.DeliveryState) (n : Notice) : Notice :=
  (n.note r state).1.sending
    (n.pending.flatMap fun e => if e.1 = r then (n.note r state).2 else [e])

def parted (r : SessionRef) (n : Notice) : Notice :=
  { n with failed := n.failed.filter (· ≠ r) }

end Notice

namespace Gateway

def notice? (p : ProcessId) (g : Gateway) : Option Notice :=
  match g.process? p with
  | some (.notice n) => some n
  | _ => none

def eligible (g : Gateway) : List SessionRef :=
  g.live.filter fun r => (g.session? r).any (·.status = .connected)

structure Gone (r : SessionRef) (g : Gateway) : Prop where
  closed : ∃ s, g.session? r = some s ∧ s.status = .closed
  absent : r ∉ g.live

def growth (r : SessionRef) (g g' : Gateway) : List Message :=
  (g'.outbox r).drop (g.outbox r).length

def idOf? (r : SessionRef) (g : Gateway) : Option String := (g.session? r).map Session.id

end Gateway

namespace Broadcast

open Gateway

def step (p : ProcessId) (g : Gateway) : Move → Option Gateway
  | .act a => g.perform a
  | .tell r => do
    let n ← g.notice? p
    let d ← n.pending.lookup r
    let (state, g) := g.deliver p r d
    some (g.setProcess p (.notice (n.tried r state)))
  | .part r => do
    let n ← g.notice? p
    if n.stage = .sending [] ∧ r ∈ n.failed then
      some ((g.disconnect r).setProcess p (.notice (n.parted r)))
    else none

abbrev Moment := Transit Gateway Move

namespace Moment

def ofRun (x : AgentGateway.Moment) : Moment := ⟨x.before, .act x.act, x.after⟩

def queued (p : ProcessId) (r : SessionRef) (y : Moment) : List Message :=
  if y.move.isOwn p then growth r y.before y.after else []

structure Leaves (r : SessionRef) (y : Moment) : Prop where
  session : y.after.session? r = y.before.session? r
  live : r ∈ y.after.live ↔ r ∈ y.before.live

structure Spares (r : SessionRef) (y : Moment) : Prop where
  session : (y.after.session? r).map Session.unqueued = (y.before.session? r).map Session.unqueued
  live : r ∈ y.after.live ↔ r ∈ y.before.live

/-- That a process finds a session lost that it was still to tell, and that cannot be written to. -/
structure Fails (p : ProcessId) (r : SessionRef) (y : Moment) : Prop where
  own : y.move.isOwn p = true
  awaited : ∃ n, y.before.notice? p = some n ∧ r ∈ n.awaited
  failed : ∃ n, y.after.notice? p = some n ∧ r ∈ n.failed
  unwritable : ¬ y.before.IsOpen r

end Moment

def queuedIn (p : ProcessId) (r : SessionRef) (xs : List Moment) : List Message :=
  xs.flatMap (Moment.queued p r)

/-- That a process has put these messages into the queue of a session, and has done nothing else to
it. -/
structure Served (p : ProcessId) (ms : List Message) (r : SessionRef) (xs : List Moment) :
    Prop where
  queued : queuedIn p r xs = ms
  unfailed : ∀ y ∈ xs, ¬ y.Fails p r
  spared : ∀ y ∈ xs, y.move.isOwn p = true → y.Spares r

/-- That a process has found a session lost, has told it nothing, and that it is gone. -/
structure Lost (p : ProcessId) (r : SessionRef) (xs : List Moment) (g : Gateway) : Prop where
  untold : queuedIn p r xs = []
  failed : ∃ y ∈ xs, y.Fails p r
  gone : g.Gone r

/-- That a process has told a session nothing and done nothing to it, which may not have been there
all the time. -/
structure Untouched (p : ProcessId) (r : SessionRef) (xs : List Moment) : Prop where
  untold : queuedIn p r xs = []
  left : ∀ y ∈ xs, y.move.isOwn p = true → y.Leaves r

end Broadcast

namespace Notice

variable {n : Notice} {r q : SessionRef} {d : Delivery} {state : Gateway.DeliveryState}
  {before after : List (SessionRef × Delivery)}

theorem tried_eq (h : n.pending = before ++ (r, d) :: after) (hnodup : n.awaited.Nodup) :
    n.tried r state = (n.note r state).1.sending (before ++ (n.note r state).2 ++ after) := by
  rw [awaited, h, List.map_append, List.map_cons, List.nodup_append, List.nodup_cons] at hnodup
  obtain ⟨-, ⟨hafter, -⟩, hbefore⟩ := hnodup
  have hkept (l : List (SessionRef × Delivery)) (hl : ∀ e ∈ l, e.1 ≠ r) :
      (l.flatMap fun e => if e.1 = r then (n.note r state).2 else [e]) = l := by
    refine (List.flatMap_congr fun e he => if_neg (hl e he)).trans ?_
    exact List.flatMap_singleton' l
  rw [tried, h, List.flatMap_append, List.flatMap_cons, if_pos rfl, ← List.append_assoc,
    hkept before fun e he => hbefore e.1 (List.mem_map_of_mem he) r List.mem_cons_self,
    hkept after fun e he heq => hafter (List.mem_map.mpr ⟨e, he, heq⟩)]

end Notice

namespace Gateway

variable {g g₁ g' : Gateway} {p o : ProcessId} {r q : SessionRef} {s t : Session} {d : Delivery}
  {m : Message} {n : Notice} {x : Process} {a : Act}

theorem process?_of_notice? (h : g.notice? p = some n) : g.process? p = some (.notice n) := by
  unfold notice? at h
  split at h <;> cases h
  assumption

theorem notice?_eq (h : g.process? p = some (.notice n)) : g.notice? p = some n := by
  rw [notice?, h]

theorem notice?_setProcess (h : g.notice? p = some n) {n' : Notice} :
    (g.setProcess p (.notice n')).notice? p = some n' := by
  refine notice?_eq ?_
  rw [process?_setProcess, if_pos rfl, process?_of_notice? h, Option.map_some]

theorem notice?_of_inner (h : g'.inner = g.inner) : g'.notice? p = g.notice? p := by
  rw [notice?, notice?, process?_of_inner h]

structure Delivers (g g' : Gateway) : Prop where
  profile : g'.profile Session.unqueued = g.profile Session.unqueued
  queues : ∀ r, g.outbox r <+: g'.outbox r
  opened : ∀ r, g.IsOpen r → g'.IsOpen r

theorem Delivers.refl (g : Gateway) : g.Delivers g :=
  ⟨rfl, fun _ => List.prefix_rfl, fun _ ho => ho⟩

theorem Delivers.trans (h : g.Delivers g₁) (k : g₁.Delivers g') : g.Delivers g' :=
  ⟨k.profile.trans h.profile, fun r => (h.queues r).trans (k.queues r),
    fun r ho => k.opened r (h.opened r ho)⟩

theorem Delivers.live (h : g.Delivers g') : g'.live = g.live := (congrArg Profile.live h.profile :)

theorem growth_trans (h : g.Delivers g₁) (k : g₁.Delivers g') :
    growth r g g' = growth r g g₁ ++ growth r g₁ g' := by
  obtain ⟨xs, hxs⟩ := h.queues r
  obtain ⟨ys, hys⟩ := k.queues r
  simp [growth, ← hys, ← hxs]

theorem deliver_fresh (hs : g.session? r = some s) : g.deliver p r (.fresh m) =
    if s.outbound.attached then g.deliver p r (.waiting m) else (.failed (.closed s.id), g) := by
  rw [deliver, deliver, hs]

theorem deliver_waiting (hs : g.session? r = some s) : (g.deliver p r (.waiting m)).2 = g ∨
    (g.deliver p r (.waiting m)).2 =
      g.setSession r { s with outbound := (s.outbound.offerFor p m).2 } := by
  rw [deliver, hs]
  dsimp only
  split <;> rename_i hoffer <;> rw [hoffer]
  · exact .inr rfl
  · exact .inr rfl
  · exact .inl rfl

theorem deliver_spec : (g.deliver p r d).2 = g ∨ ∃ s outbound, g.session? r = some s ∧
    (g.deliver p r d).2 = g.setSession r { s with outbound } ∧
    outbound.attached = s.outbound.attached ∧ outbound.receiving = s.outbound.receiving := by
  cases hs : g.session? r with
  | none =>
      rw [deliver, hs]
      exact .inl rfl
  | some s =>
      cases d with
      | waiting m =>
          exact deliver_waiting hs |>.imp_right fun heq => ⟨s, _, rfl, heq, attached_offerFor⟩
      | fresh m =>
          rw [deliver_fresh hs]
          split
          · exact deliver_waiting hs |>.imp_right fun heq => ⟨s, _, rfl, heq, attached_offerFor⟩
          · exact .inl rfl

theorem session?_deliver (hne : q ≠ r) : (g.deliver p r d).2.session? q = g.session? q := by
  rcases deliver_spec (g := g) (p := p) (r := r) (d := d) with h | ⟨s, outbound, hs, h, -⟩
  · rw [h]
  · rw [h, session?_setSession hs, if_neg hne]

theorem delivers_deliver : g.Delivers (g.deliver p r d).2 := by
  refine ⟨profile_deliver, fun q => ?_, fun q ho => ?_⟩
  · by_cases heq : q = r
    · subst heq
      have hdelivered := delivered_deliver (g := g) (p := p) (r := q) d
      generalize (g.deliver p q d).1 = state, (g.deliver p q d).2 = g' at hdelivered ⊢
      cases hdelivered with
      | sent hbox => exact ⟨_, hbox.symm⟩
      | pending hbox => exact hbox ▸ List.prefix_rfl
      | failed => exact List.prefix_rfl
    · rw [outbox, outbox, session?_deliver heq]
  · obtain ⟨s, hs, ha, hr⟩ := ho
    by_cases heq : q = r
    · subst heq
      rcases deliver_spec (g := g) (p := p) (r := q) (d := d) with
        h | ⟨s', outbound, hs', h, ha', hr'⟩
      · rw [h]
        exact ⟨s, hs, ha, hr⟩
      · cases hs.symm.trans hs'
        rw [h]
        exact ⟨_, session?_setSession_self hs, ha'.trans ha, hr'.trans hr⟩
    · exact ⟨s, (session?_deliver heq).trans hs, ha, hr⟩

theorem ages_deliver : g.Ages (g.deliver p r d).2 := by
  have hposts : Board.Posts none (g.boardWith fun _ => none)
      ((g.deliver p r d).2.boardWith fun _ => none) := carried_deliver.posts
  obtain ⟨es, hp, -⟩ := hposts
  exact hp.ages

theorem length_deliver : (g.deliver p r d).2.sessions.length = g.sessions.length :=
  length_of_roster (roster_of_profile profile_deliver)

theorem Registered.deliver (h : g.Registered) : (g.deliver p r d).2.Registered := by
  have hlive : (g.deliver p r d).2.live = g.live := delivers_deliver.live
  exact h.thin ages_deliver length_deliver (hlive ▸ .refl _)
    fun _ _ hr hgone => absurd (hlive ▸ hr) hgone

end Gateway

namespace Broadcast

open Gateway

variable {p : ProcessId} {m : Message} {E : Finset SessionRef} {n n₁ n' : Notice}
  {g g₁ g' : Gateway} {r q : SessionRef} {d : Delivery}
  {before after : List (SessionRef × Delivery)}

structure Fits (m : Message) (E : Finset SessionRef) (n : Notice) : Prop where
  known : ∀ r ∈ n.awaited ++ n.failed, r ∈ E
  nodup : (n.awaited ++ n.failed).Nodup
  messages : ∀ e ∈ n.pending, e.2.message = m

inductive Outcome (m : Message) (n' : Notice) (g g' : Gateway) (r : SessionRef) : Prop
  | awaited : r ∈ n'.awaited → g'.outbox r = g.outbox r → Outcome m n' g g' r
  | told : r ∉ n'.awaited → r ∉ n'.failed → g'.outbox r = g.outbox r ++ [m] → Outcome m n' g g' r
  | lost : r ∉ n'.awaited → r ∈ n'.failed → g'.outbox r = g.outbox r → ¬ g.IsOpen r →
      Outcome m n' g g' r

structure Attempted (m : Message) (E : Finset SessionRef) (n : Notice) (g : Gateway) (n' : Notice)
    (g' : Gateway) : Prop where
  delivers : g.Delivers g'
  fits : Fits m E n'
  outcome : ∀ r ∈ n.awaited, Outcome m n' g g' r
  others : ∀ r ∉ n.awaited,
    r ∉ n'.awaited ∧ (r ∈ n'.failed ↔ r ∈ n.failed) ∧ g'.session? r = g.session? r
  delivered : n'.delivered = n.delivered + ∑ r ∈ E, (growth r g g').length

theorem Attempted.refl (h : Fits m E n) : Attempted m E n g n g where
  delivers := .refl g
  fits := h
  outcome r hr := .awaited hr rfl
  others r hr := ⟨hr, .rfl, rfl⟩
  delivered := by simp [growth]

theorem Attempted.trans (h : Attempted m E n g n₁ g₁) (k : Attempted m E n₁ g₁ n' g') :
    Attempted m E n g n' g' where
  delivers := h.delivers.trans k.delivers
  fits := k.fits
  outcome r hr := by
    have hbox (hr₁ : r ∉ n₁.awaited) : g'.outbox r = g₁.outbox r := by
      rw [outbox, outbox, (k.others r hr₁).2.2]
    cases h.outcome r hr with
    | awaited hr₁ hbox₁ =>
        cases k.outcome r hr₁ with
        | awaited hr' hbox' => exact .awaited hr' (hbox'.trans hbox₁)
        | told hr' hlost hbox' => exact .told hr' hlost (hbox'.trans (congrArg (· ++ [m]) hbox₁))
        | lost hr' hlost hbox' hshut =>
            exact .lost hr' hlost (hbox'.trans hbox₁) (mt (h.delivers.opened r) hshut)
    | told hr₁ hlost hbox₁ =>
        obtain ⟨hr', hsame, -⟩ := k.others r hr₁
        exact .told hr' (mt hsame.mp hlost) ((hbox hr₁).trans hbox₁)
    | lost hr₁ hlost hbox₁ hshut =>
        obtain ⟨hr', hsame, -⟩ := k.others r hr₁
        exact .lost hr' (hsame.mpr hlost) ((hbox hr₁).trans hbox₁) hshut
  others r hr := by
    obtain ⟨hr₁, hfailed₁, hs₁⟩ := h.others r hr
    obtain ⟨hr', hfailed', hs'⟩ := k.others r hr₁
    exact ⟨hr', hfailed'.trans hfailed₁, hs'.trans hs₁⟩
  delivered := by
    rw [k.delivered, h.delivered, Nat.add_assoc, ← Finset.sum_add_distrib]
    refine congrArg (n.delivered + ·) (Finset.sum_congr rfl fun r _ => ?_)
    rw [growth_trans h.delivers k.delivers, List.length_append]

theorem Attempted.setProcess {x : Process} (h : Attempted m E n g n' g') :
    Attempted m E n g n' (g'.setProcess p x) :=
  ⟨⟨h.delivers.profile, h.delivers.queues, h.delivers.opened⟩, h.fits, fun r hr => by
    cases h.outcome r hr with
    | awaited hr' hbox => exact .awaited hr' hbox
    | told hr' hlost hbox => exact .told hr' hlost hbox
    | lost hr' hlost hbox hshut => exact .lost hr' hlost hbox hshut, h.others, h.delivered⟩

section Note

variable {state : DeliveryState} (hp : n.pending = before ++ (r, d) :: after)

include hp

theorem subperm_note :
    (((n.note r state).1.sending (before ++ (n.note r state).2 ++ after)).awaited ++
      (n.note r state).1.failed).Subperm (n.awaited ++ n.failed) := by
  have hawaited : n.awaited = before.map Prod.fst ++ r :: after.map Prod.fst := by
    rw [Notice.awaited, hp, List.map_append, List.map_cons]
  have hnoted (again : List (SessionRef × Delivery)) (n : Notice) :
      (n.sending (before ++ again ++ after)).awaited =
        before.map Prod.fst ++ again.map Prod.fst ++ after.map Prod.fst := by
    simp [Notice.awaited, Notice.pending, Notice.sending]
  rw [hawaited, hnoted]
  cases state with
  | sent =>
      simp only [Notice.note, List.map_nil, List.append_nil]
      refine (List.Sublist.append_right ?_ _).subperm
      exact List.Sublist.append_left (List.sublist_cons_self ..) _
  | pending d' => simpa [Notice.note] using List.Subperm.refl _
  | failed e =>
      simp only [Notice.note, List.map_nil, List.append_nil, List.append_assoc]
      refine (List.Perm.append_left _ ?_).subperm
      rw [← List.append_assoc]
      exact List.perm_append_singleton ..

theorem fits_note (h : Fits m E n) (hnew : ∀ d', state = .pending d' → d'.message = m) :
    Fits m E ((n.note r state).1.sending (before ++ (n.note r state).2 ++ after)) := by
  have hsub : (((n.note r state).1.sending (before ++ (n.note r state).2 ++ after)).awaited ++
      (n.note r state).1.failed).Subperm (n.awaited ++ n.failed) := subperm_note hp
  refine ⟨fun q hq => h.known q (hsub.subset hq), ?_, fun e he => ?_⟩
  · obtain ⟨l, hperm, hsublist⟩ := hsub
    exact hperm.nodup_iff.mp (h.nodup.sublist hsublist)
  · have hmessages := h.messages
    rw [hp] at hmessages
    rw [Notice.pending, Notice.sending, List.mem_append, List.mem_append] at he
    rcases he with (he | he) | he
    · exact hmessages e (List.mem_append_left _ he)
    · cases state with
      | pending d' =>
          obtain rfl := List.mem_singleton.mp he
          exact hnew d' rfl
      | sent | failed => cases he
    · exact hmessages e (List.mem_append_right _ (List.mem_cons_of_mem _ he))

theorem mem_awaited_note (hne : q ≠ r) :
    q ∈ ((n.note r state).1.sending (before ++ (n.note r state).2 ++ after)).awaited ↔
      q ∈ n.awaited := by
  have hawaited : n.awaited = before.map Prod.fst ++ r :: after.map Prod.fst := by
    rw [Notice.awaited, hp, List.map_append, List.map_cons]
  rw [hawaited]
  cases state <;> simp [Notice.awaited, Notice.pending, Notice.sending, Notice.note, hne]

omit hp in
theorem mem_failed_note (hne : q ≠ r) : q ∈ (n.note r state).1.failed ↔ q ∈ n.failed := by
  cases state <;> simp [Notice.note, hne]

theorem attempted_note (h : Fits m E n) (hd : g.deliver p r d = (state, g')) :
    Attempted m E n g
      ((n.note r state).1.sending (before ++ (n.note r state).2 ++ after)) g' := by
  have hdelivered := delivered_deliver (g := g) (p := p) (r := r) d
  have hdelivers : g.Delivers (g.deliver p r d).2 := delivers_deliver
  have hothers (q : SessionRef) (hne : q ≠ r) : (g.deliver p r d).2.session? q = g.session? q :=
    session?_deliver hne
  rw [hd] at hdelivered hdelivers hothers
  have hmem : (r, d) ∈ n.pending := hp ▸ List.mem_append_right _ List.mem_cons_self
  have hr : r ∈ n.awaited := List.mem_map_of_mem hmem
  have hfresh : r ∉ n.failed := List.disjoint_of_nodup_append h.nodup hr
  have hmessage : d.message = m := h.messages _ hmem
  have hgrowth : ∑ q ∈ E, (growth q g g').length = (growth r g g').length := by
    refine Finset.sum_eq_single_of_mem r (h.known r (List.mem_append_left _ hr)) fun q _ hne => ?_
    rw [growth, outbox, outbox, hothers q hne, List.drop_length, List.length_nil]
  have hgone : r ∉ before.map Prod.fst ++ after.map Prod.fst := by
    have hnodup := h.nodup.of_append_left
    rw [Notice.awaited, hp, List.map_append, List.map_cons, List.nodup_middle,
      List.nodup_cons] at hnodup
    exact hnodup.1
  have houtcome : Outcome m
      ((n.note r state).1.sending (before ++ (n.note r state).2 ++ after)) g g' r ∧
      (n.note r state).1.delivered = n.delivered + (growth r g g').length ∧
      ∀ d', state = .pending d' → d'.message = m := by
    cases hdelivered with
    | sent hbox =>
        refine ⟨.told ?_ hfresh (hmessage ▸ hbox), by simp [Notice.note, growth, hbox],
          by rintro _ ⟨⟩⟩
        simpa [Notice.awaited, Notice.pending, Notice.sending, Notice.note] using hgone
    | @pending d' _ hbox hsame =>
        refine ⟨.awaited ?_ hbox, by simp [Notice.note, growth, hbox], ?_⟩
        · simp [Notice.awaited, Notice.pending, Notice.sending, Notice.note]
        · rintro d'' ⟨⟩
          exact hsame.trans hmessage
    | @failed e hshut =>
        refine ⟨.lost ?_ ?_ rfl hshut, by simp [Notice.note, growth], by rintro _ ⟨⟩⟩
        · simpa [Notice.awaited, Notice.pending, Notice.sending, Notice.note] using hgone
        · simp [Notice.sending, Notice.note]
  obtain ⟨houtcome, hcount, hnew⟩ := houtcome
  constructor
  case delivers => exact hdelivers
  case fits => exact fits_note hp h hnew
  case outcome =>
    intro q hq
    by_cases heq : q = r
    · exact heq ▸ houtcome
    · refine .awaited ((mem_awaited_note hp heq).mpr hq) ?_
      rw [outbox, outbox, hothers q heq]
  case others =>
    intro q hq
    have hne : q ≠ r := fun heq => hq (heq ▸ hr)
    exact ⟨mt (mem_awaited_note hp hne).mp hq, mem_failed_note hne, hothers q hne⟩
  case delivered => rw [hgrowth]; exact hcount

end Note

theorem note_sending (pending pending' : List (SessionRef × Delivery)) (state : DeliveryState) :
    ((n.sending pending).note r state).1.sending pending' =
        (n.note r state).1.sending pending' ∧
      ((n.sending pending).note r state).2 = (n.note r state).2 := by
  cases state <;> exact ⟨rfl, rfl⟩

theorem attempted_tellEach (todo : List (SessionRef × Delivery)) {again : List (SessionRef × Delivery)}
    (h : Fits m E (n.sending (again ++ todo))) :
    Attempted m E (n.sending (again ++ todo)) g
      ((g.tellEach p todo n).1.sending (again ++ (g.tellEach p todo n).2.1))
      (g.tellEach p todo n).2.2 := by
  induction todo generalizing again n g with
  | nil => exact .refl h
  | cons e todo ih =>
      obtain ⟨r, d⟩ := e
      rw [tellEach]
      cases hd : g.deliver p r d with
      | mk state g₁ =>
          have hnote := attempted_note rfl h hd
          obtain ⟨hnoted, hagain⟩ := note_sending (n := n) (r := r) (again ++ (r, d) :: todo)
            (again ++ (n.note r state).2 ++ todo) state
          rw [hagain, hnoted] at hnote
          refine hnote.trans ?_
          have hrest := ih (g := g₁) hnote.fits
          rw [List.append_assoc again _ (g₁.tellEach p todo (n.note r state).1).2.1] at hrest
          exact hrest

end Broadcast

namespace Gateway

variable {g g₁ g' : Gateway} {r q : SessionRef} {rs : List SessionRef} {s : Session} {a : Act}

theorem Ages.idOf? (h : g.Ages g') (hr : r < g.sessions.length) : g'.idOf? r = g.idOf? r := by
  have hs : g.session? r = some _ := List.getElem?_eq_getElem hr
  obtain ⟨s', hs', hage⟩ := h r _ hs
  rw [Gateway.idOf?, Gateway.idOf?, hs, hs', Option.map_some, Option.map_some, hage.named]

theorem Enlisted.eq_of_idOf? (h : g.Enlisted) (hr : r ∈ g.live) (hq : q ∈ g.live)
    (hid : g.idOf? q = g.idOf? r) : q = r := by
  have hs : g.session? r = some _ := List.getElem?_eq_getElem (h.opened r hr)
  have ht : g.session? q = some _ := List.getElem?_eq_getElem (h.opened q hq)
  rw [idOf?, idOf?, hs, ht, Option.map_some, Option.map_some] at hid
  exact h.unique q r _ _ hq hr ht hs (Option.some.inj hid)

theorem Gone.keep (h : g.Gone r) (ha : g.Ages g') (hl : r ∈ g'.live → r ∈ g.live) : g'.Gone r := by
  obtain ⟨⟨s, hs, hclosed⟩, habsent⟩ := h
  obtain ⟨s', hs', hage⟩ := ha r s hs
  exact ⟨⟨s', hs', hage.closed hclosed⟩, mt hl habsent⟩

theorem Gone.perform (h : g.Gone r) (hn : g.Numbered) (hl : g.live.Nodup)
    (hstep : g.perform a = some g') : g'.Gone r := by
  obtain ⟨es, hp, -⟩ := posted_perform hn hstep
  obtain ⟨s, hs, -⟩ := h.closed
  exact h.keep hp.ages fun hr =>
    absurd hr (absent_perform hl (lt_of_session? hs) h.absent hstep)

theorem outbox_retire {reason : CloseReason} : (g.retire r reason).outbox q = g.outbox q := by
  rw [outbox, outbox, session?_retire]
  cases g.session? q with
  | none => rfl
  | some s =>
      simp only [Option.map_some, Option.elim_some]
      split
      · unfold Session.close
        split <;> rfl
      · rfl

/-- That a live session has the id of another one, which has gone. -/
structure Succeeds (q r : SessionRef) (g : Gateway) : Prop where
  live : q ∈ g.live
  gone : g.Gone r
  named : g.idOf? q = g.idOf? r

theorem disconnect_cases (h : g.Registered) (hr : r < g.sessions.length) :
    g.Gone r ∧ g.disconnect r = g ∨ g.disconnect r = g.retire r .disconnected ∨
      ∃ q, g.Succeeds q r ∧ g.disconnect r = g.retire q .disconnected := by
  have hs : g.session? r = some _ := List.getElem?_eq_getElem hr
  have hgone (habsent : r ∉ g.live) : g.Gone r :=
    ⟨⟨_, hs, by_contra fun hopen => habsent (h.listed r _ hs hopen)⟩, habsent⟩
  unfold disconnect closeSession
  rw [hs]
  dsimp only
  cases hf : g.find? g.sessions[r].id with
  | none =>
      refine .inl ⟨hgone fun hlive => ?_, rfl⟩
      cases hf.symm.trans (h.find? hlive hs)
  | some found =>
      obtain ⟨q, t⟩ := found
      obtain ⟨hq, ht, hid⟩ := find?_spec hf
      have hnamed : g.idOf? q = g.idOf? r := by
        rw [idOf?, idOf?, hs, ht, Option.map_some, Option.map_some, hid]
      by_cases hlive : r ∈ g.live
      · obtain rfl := h.eq_of_idOf? hlive hq hnamed
        exact .inr (.inl rfl)
      · exact .inr (.inr ⟨q, ⟨hq, hgone hlive, hnamed⟩, rfl⟩)

/-- What comes of sessions that are closed by their ids, and of those that have come under these
ids meanwhile. -/
structure Parted (rs : List SessionRef) (g g' : Gateway) : Prop where
  gone : ∀ r ∈ rs, g'.Gone r
  others : ∀ q ∉ rs, g'.session? q = g.session? q ∧ (q ∈ g'.live ↔ q ∈ g.live) ∨
    ∃ r ∈ rs, g.Succeeds q r
  queues : ∀ q, g'.outbox q = g.outbox q
  live : g'.live.Sublist g.live
  ages : g.Ages g'
  length : g'.sessions.length = g.sessions.length
  registered : g'.Registered

theorem ages_refl : g.Ages g := fun _ s hs => ⟨s, hs, .refl s⟩

theorem Ages.comp (h : g.Ages g₁) (k : g₁.Ages g') : g.Ages g' := by
  intro r s hs
  obtain ⟨s₁, hs₁, hage₁⟩ := h r s hs
  obtain ⟨s', hs', hage⟩ := k r s₁ hs₁
  exact ⟨s', hs', hage₁.trans hage⟩

theorem Parted.nil (h : g.Registered) : Parted [] g g where
  gone := List.forall_mem_nil _
  others _ _ := .inl ⟨rfl, .rfl⟩
  queues _ := rfl
  live := .refl _
  ages := ages_refl
  length := rfl
  registered := h

theorem Parted.setProcess {p : ProcessId} {x : Process} (h : Parted rs g g') :
    Parted rs g (g'.setProcess p x) where
  gone r hr := ⟨(h.gone r hr).closed, (h.gone r hr).absent⟩
  others := h.others
  queues := h.queues
  live := h.live
  ages := h.ages
  length := h.length
  registered := h.registered.of_desk desk_setProcess

theorem parted_disconnect (h : g.Registered) (hr : r < g.sessions.length) :
    Parted [r] g (g.disconnect r) := by
  have hretire (q : SessionRef) (hq : q = r ∨ g.Succeeds q r) :
      Parted [r] g (g.retire q .disconnected) := by
    have hlive : (g.retire q .disconnected).live = g.live.filter (· ≠ q) := live_retire
    constructor
    case gone =>
      intro r' hr'
      obtain rfl := List.mem_singleton.mp hr'
      rcases hq with rfl | hq
      · have hs : (g.retire q .disconnected).session? q = some _ :=
          List.getElem?_eq_getElem (length_retire.symm ▸ hr)
        exact ⟨⟨_, hs, closed_shut (g := { g with live := g.live.filter (· ≠ q) }) hs⟩,
          hlive ▸ by simp⟩
      · exact hq.gone.keep ages_retire fun hr => List.mem_of_mem_filter (hlive ▸ hr)
    case others =>
      intro q' hq'
      rw [List.mem_singleton] at hq'
      by_cases heq : q' = q
      · subst heq
        exact .inr ⟨r, List.mem_singleton_self r, hq.resolve_left hq'⟩
      · refine .inl ⟨?_, by simp [hlive, heq]⟩
        rw [session?_retire]
        simp only [if_neg heq]
        exact Option.map_id_apply
    case queues => exact fun _ => outbox_retire
    case live => exact hlive ▸ List.filter_sublist
    case ages => exact ages_retire
    case length => exact length_retire
    case registered => exact h.retire
  rcases disconnect_cases h hr with ⟨hgone, heq⟩ | heq | ⟨q, hq, heq⟩
  · rw [heq]
    exact { Parted.nil h with
      gone := fun q hq => List.mem_singleton.mp hq ▸ hgone
      others := fun _ _ => .inl ⟨rfl, .rfl⟩ }
  · exact heq ▸ hretire r (.inl rfl)
  · exact heq ▸ hretire q (.inr hq)

theorem Succeeds.back (k : g₁.Succeeds q r) (hg : g.Registered) (h : Parted rs g g₁)
    (hr : r < g.sessions.length) : g.Succeeds q r := by
  have hq : q ∈ g.live := h.live.subset k.live
  have hnamed : g.idOf? q = g.idOf? r := by
    rw [← h.ages.idOf? (hg.opened q hq), k.named, h.ages.idOf? hr]
  have hs : g.session? r = some _ := List.getElem?_eq_getElem hr
  have habsent : r ∉ g.live := fun hlive =>
    k.gone.absent (hg.eq_of_idOf? hlive hq hnamed ▸ k.live)
  exact ⟨hq, ⟨⟨_, hs, by_contra fun hopen => habsent (hg.listed r _ hs hopen)⟩, habsent⟩, hnamed⟩

theorem Parted.cons (h : Parted [r] g g₁) (k : Parted rs g₁ g') (hg : g.Registered)
    (hknown : ∀ q ∈ rs, q < g.sessions.length) : Parted (r :: rs) g g' where
  gone q hq := by
    rcases List.mem_cons.mp hq with rfl | hq
    · exact (h.gone q (List.mem_singleton_self q)).keep k.ages fun hq => k.live.subset hq
    · exact k.gone q hq
  others q hq := by
    rw [List.mem_cons, not_or] at hq
    rcases h.others q (by simpa using hq.1) with ⟨hs₁, hl₁⟩ | ⟨r', hr', hsucceeds⟩
    · rcases k.others q hq.2 with ⟨hs, hl⟩ | ⟨r', hr', hsucceeds⟩
      · exact .inl ⟨hs.trans hs₁, hl.trans hl₁⟩
      · exact .inr ⟨r', List.mem_cons_of_mem _ hr', hsucceeds.back hg h (hknown r' hr')⟩
    · exact .inr ⟨r', List.mem_cons.mpr (.inl (List.mem_singleton.mp hr')), hsucceeds⟩
  queues q := (k.queues q).trans (h.queues q)
  live := k.live.trans h.live
  ages := h.ages.comp k.ages
  length := k.length.trans h.length
  registered := k.registered

theorem parted_disconnectEach (rs : List SessionRef) (h : g.Registered)
    (hknown : ∀ r ∈ rs, r < g.sessions.length) : Parted rs g (rs.foldl disconnect g) := by
  induction rs generalizing g with
  | nil => exact .nil h
  | cons r rs ih =>
      obtain ⟨hr, hrs⟩ := List.forall_mem_cons.mp hknown
      have hfirst := parted_disconnect h hr
      exact hfirst.cons (ih hfirst.registered fun q hq => hfirst.length ▸ hrs q hq) h hrs

end Gateway

end AgentGateway
