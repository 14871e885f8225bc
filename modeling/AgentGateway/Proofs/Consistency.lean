import AgentGateway.Proofs.Accounts
/-!
The registry, the sessions and the metrics agree, whatever operations upon the registry go on side
by side: they differ only by the strokes that are still to be played.
-/

namespace AgentGateway

structure Cleared (g : Gateway) (due : List Stroke) : Prop where
  vacant : ∀ r s, g.session? r = some s → s.status = .closed → s.pending = []
  regular : ∀ r s, g.session? r = some s → .detach r ∉ due →
    (s.outbound.attached = true ↔ s.status ≠ .closed)
  detaching : ∀ r, .detach r ∈ due → ∃ s, g.session? r = some s ∧ s.status = .closed

namespace Gateway

variable {g g' g'' : Gateway} {r q : SessionRef} {s s' : Session} {st : Stroke}
  {more due due' o : List Stroke} {a : Act} {es : List Errand} {H H' : ProcessId → Option Handle}

def Onward (g g' : Gateway) : Prop :=
  ∀ r s, g.session? r = some s → ∃ s', g'.session? r = some s' ∧ s.Onward s'

theorem Onward.refl (g : Gateway) : g.Onward g := fun _ s hs => ⟨s, hs, .refl s⟩

theorem Onward.trans (h : g.Onward g') (k : g'.Onward g'') : g.Onward g'' := by
  intro r s hs
  obtain ⟨s', hs', hon⟩ := h r s hs
  obtain ⟨s'', hs'', hon'⟩ := k r s' hs'
  exact ⟨s'', hs'', hon.trans hon'⟩

theorem Onward.of_path (hp : Board.Path (g.boardWith H) es (g'.boardWith H')) : g.Onward g' := by
  intro r s hs
  obtain ⟨s', hs', hage⟩ := hp.ages r s hs
  exact ⟨s', hs', .of_ages hage⟩

theorem path_openSession {draws : List String} {owner : String} {kind : SessionKind}
    {params : SessionParams} (h : g.openSession draws owner kind params = some (r, g')) :
    Board.Path (g.boardWith H) [.quiet] (g'.boardWith H) := .single (carried_openSession h).step

theorem Onward.of_play (h : g.play st = some (more, g')) : g.Onward g' := by
  cases st with
  | enter draws owner kind params =>
      obtain ⟨r, g₁, hopen, rfl, -⟩ := play_enter h
      have hon : g.Onward g₁ := .of_path (path_openSession (H := fun _ => none) hopen)
      exact hon
  | _ =>
      intro r s hs
      have hw := reworked_play h (by simp)
      exact ⟨_, by rw [hw.sessions, hs, Option.map_some], .of_rework r s _⟩

theorem detach_mem_finish : .detach q ∈ (g.finish r).1 ↔
    q = r ∧ ∃ s, g.session? r = some s ∧ s.status ≠ .closed := by
  unfold finish
  cases hs : g.session? r with
  | none => simp
  | some s => by_cases hc : s.status = .closed <;> simp [hc]

theorem detach_mem_play (h : g.play st = some (more, g')) :
    .detach q ∈ more ↔ st = .finish q ∧ ∃ s, g.session? q = some s ∧ s.status ≠ .closed := by
  cases st with
  | enter draws owner kind params =>
      obtain ⟨-, -, -, -, rfl⟩ := play_enter h
      simp
  | remove id reason =>
      unfold play at h
      dsimp only at h
      split at h <;> cases h <;> simp [Stroke.closing]
  | evict timeout ids =>
      cases h
      simp [Stroke.closing]
  | finish r =>
      obtain rfl : _ = more := congrArg Prod.fst (Option.some.inj h)
      rw [detach_mem_finish, Stroke.finish.injEq]
      constructor
      · rintro ⟨rfl, hs⟩
        exact ⟨rfl, hs⟩
      · rintro ⟨rfl, hs⟩
        exact ⟨rfl, hs⟩
  | countOpened | raise | detach _ | unthrottle _ | release _ | countClosed _ _ | lower =>
      cases h
      simp

end Gateway

namespace Cleared

open Gateway

variable {g g' : Gateway} {r q : SessionRef} {s s' : Session} {st : Stroke}
  {more due due' o : List Stroke} {a : Act} {es : List Errand} {H H' : ProcessId → Option Handle}

theorem mono (h : Cleared g due) (hdue : ∀ r, .detach r ∈ due' ↔ .detach r ∈ due) :
    Cleared g due' where
  vacant := h.vacant
  regular r s hs hd := h.regular r s hs (mt (hdue r).mpr hd)
  detaching r hd := h.detaching r ((hdue r).mp hd)

theorem path (h : Cleared g due) (hp : Board.Path (g.boardWith H) es (g'.boardWith H')) :
    Cleared g' due where
  vacant r s' hs' := by
    rcases hp.line_cases hs' with ⟨s, hs, hage⟩ | ⟨-, hvacant⟩
    · exact hage.vacant (h.vacant r s hs)
    · exact hvacant
  regular r s' hs' hd := by
    rcases hp.line_cases hs' with ⟨s, hs, hage⟩ | ⟨hregular, -⟩
    · exact hage.regular (h.regular r s hs hd)
    · exact hregular
  detaching r hd := by
    obtain ⟨s, hs, hc⟩ := h.detaching r hd
    obtain ⟨s', hs', hage⟩ := hp.ages r s hs
    exact ⟨s', hs', hage.closed hc⟩

theorem start {g₀ : Gateway} (h₀ : g₀.IsNew) : Cleared g₀ [] := by
  obtain ⟨settings, tools, epoch, rfl⟩ := h₀
  constructor
  case vacant | regular =>
    intro r s hs
    cases hs
  case detaching =>
    intro r hd
    cases hd

theorem run {g₀ : Gateway} {ms : List Moment} (h₀ : g₀.IsNew) (hr : Run g₀ ms g) :
    Cleared g [] := by
  obtain ⟨es, hp, -⟩ := hr.boards h₀.numbered
  exact (start h₀).path hp

theorem vacant_rework (h : s.status = .closed → s.pending = [])
    (hc : (st.rework q s).status = .closed) : (st.rework q s).pending = [] := by
  cases st with
  | finish r =>
      rw [Stroke.rework] at hc ⊢
      split
      · rfl
      · rename_i hno
        rw [if_neg hno] at hc
        exact h hc
  | detach r | unthrottle r =>
      by_cases hq : q = r
      · simp only [Stroke.rework, if_pos hq] at hc ⊢
        exact h hc
      · simp only [Stroke.rework, if_neg hq] at hc ⊢
        exact h hc
  | _ => exact h hc

theorem rework_cases (q : SessionRef) (s : Session) (st : Stroke) :
    (st = .finish q ∧ s.status ≠ .closed) ∨
    (st = .detach q ∧ (st.rework q s).outbound.attached = false ∧
      (st.rework q s).status = s.status) ∨
    (st ≠ .detach q ∧ (st.rework q s).outbound.attached = s.outbound.attached ∧
      (st.rework q s).status = s.status) := by
  cases st with
  | finish r => by_cases hq : q = r ∧ s.status ≠ .closed <;> simp [Stroke.rework, hq]
  | detach r =>
      by_cases hq : q = r
      · simp [Stroke.rework, hq, Channel.dropSender]
      · simp [Stroke.rework, hq, Ne.symm hq]
  | unthrottle r => by_cases hq : q = r <;> simp [Stroke.rework, hq]
  | _ => exact .inr (.inr ⟨by simp, rfl, rfl⟩)

theorem rework (h : Cleared g (st :: o)) (hw : Reworked st g g')
    (hmore : ∀ q, .detach q ∈ more ↔ st = .finish q ∧
      ∃ s, g.session? q = some s ∧ s.status ≠ .closed) : Cleared g' (more ++ o) := by
  have hback {q : SessionRef} {s' : Session} (hs' : g'.session? q = some s') :
      ∃ s, g.session? q = some s ∧ st.rework q s = s' := by
    rwa [hw.sessions, Option.map_eq_some_iff] at hs'
  constructor
  case vacant =>
    intro q s' hs' hc
    obtain ⟨s, hs, rfl⟩ := hback hs'
    exact vacant_rework (h.vacant q s hs) hc
  case regular =>
    intro q s' hs' hd
    obtain ⟨s, hs, rfl⟩ := hback hs'
    rw [List.mem_append, not_or, hmore] at hd
    rcases rework_cases q s st with
      ⟨hst, hopen⟩ | ⟨hst, hattached, hstatus⟩ | ⟨hst, hattached, hstatus⟩
    · exact absurd ⟨hst, s, hs, hopen⟩ hd.1
    · obtain ⟨s₀, hs₀, hc⟩ := h.detaching q (hst ▸ List.mem_cons_self)
      cases hs.symm.trans hs₀
      simp [hattached, hstatus, hc]
    · have hd' : .detach q ∉ st :: o := fun hmem =>
        (List.mem_cons.mp hmem).elim (fun heq => hst heq.symm) hd.2
      rw [hattached, hstatus]
      exact h.regular q s hs hd'
  case detaching =>
    intro q hd
    rcases List.mem_append.mp hd with hd | hd
    · obtain ⟨rfl, s, hs, hopen⟩ := (hmore q).mp hd
      exact ⟨_, by rw [hw.sessions, hs, Option.map_some], by simp [Stroke.rework, hopen]⟩
    · obtain ⟨s, hs, hc⟩ := h.detaching q (List.mem_cons_of_mem st hd)
      exact ⟨_, by rw [hw.sessions, hs, Option.map_some],
        (Session.Onward.of_rework q s st).closed hc⟩

theorem play (h : Cleared g (st :: o)) (hplay : g.play st = some (more, g')) :
    Cleared g' (more ++ o) := by
  cases st with
  | enter draws owner kind params =>
      obtain ⟨r, g₁, hopen, rfl, rfl⟩ := play_enter hplay
      have hpath : Board.Path (g.boardWith fun _ => none) [.quiet] (g₁.boardWith fun _ => none) :=
        path_openSession hopen
      have hcleared : Cleared { g₁ with metrics := g.metrics }
          (.enter draws owner kind params :: o) := h.path hpath
      exact hcleared.mono (by simp)
  | _ => exact h.rework (reworked_play hplay (by simp)) fun q => detach_mem_play hplay

end Cleared

namespace Gateway

variable {g g' : Gateway} {r : SessionRef} {st : Stroke} {more : List Stroke} {a : Act}

theorem length_of_sessions (h : ∀ q, (g'.session? q).isSome = (g.session? q).isSome) :
    g'.sessions.length = g.sessions.length := by
  have hle {g g' : Gateway} (h : ∀ q, (g'.session? q).isSome = (g.session? q).isSome) :
      g'.sessions.length ≤ g.sessions.length := by
    by_contra hlt
    have hsome := h g.sessions.length
    rw [session?, session?, List.getElem?_eq_getElem (Nat.lt_of_not_le hlt)] at hsome
    simp at hsome
  exact Nat.le_antisymm (hle h) (hle fun q => (h q).symm)

theorem Reworked.enlisted (hw : Reworked st g g') (h : g.Enlisted) : g'.Enlisted := by
  refine h.thin (length_of_sessions fun q => by simp [hw.sessions]) (fun q s' hs' => ?_) hw.live
  rw [hw.sessions, Option.map_eq_some_iff] at hs'
  obtain ⟨s, hs, rfl⟩ := hs'
  exact ⟨s, hs, (Session.Onward.of_rework q s st).named⟩

theorem Enlisted.play (h : g.Enlisted) (hplay : g.play st = some (more, g')) : g'.Enlisted := by
  cases st with
  | enter draws owner kind params =>
      obtain ⟨r, g₁, hopen, rfl, -⟩ := play_enter hplay
      have henlisted := h.openSession hopen
      exact ⟨henlisted.nodup, henlisted.opened, henlisted.unique⟩
  | _ => exact (reworked_play hplay (by simp)).enlisted h

theorem Numbered.of_inner (h : g.Numbered) (hi : g'.inner = g.inner) : g'.Numbered := by
  intro q hq
  rw [process?_of_inner hi]
  exact h q (nextProcess_of_inner hi ▸ hq)

theorem inner_play (h : g.play st = some (more, g')) : g'.inner = g.inner := by
  cases st with
  | enter draws owner kind params =>
      obtain ⟨r, g₁, hopen, rfl, -⟩ := play_enter h
      obtain ⟨id, -, heq⟩ := Option.map_eq_some_iff.mp hopen
      cases heq
      rfl
  | _ => exact (reworked_play h (by simp)).inner

theorem nodup_liveIds (h : g.Enlisted) : g.liveIds.Nodup := by
  unfold liveIds
  refine List.pairwise_filterMap.mpr (h.nodup.imp_of_mem fun {r q} hr hq hne id hid id' hid' heq => ?_)
  obtain ⟨s, hs, rfl⟩ := Option.map_eq_some_iff.mp hid
  obtain ⟨t, ht, rfl⟩ := Option.map_eq_some_iff.mp hid'
  exact hne (h.unique r q s t hr hq hs ht heq)

end Gateway

namespace Registrar

open Gateway

variable {x y : Registrar} {log log' : List (SessionRef × CloseReason)} {m : Move} {ms : List Move}
  {st : Stroke} {rest : List Stroke} {r : SessionRef} {s : Session} {i : Nat}

theorem due_play (h : x.tasks[i]? = some (st :: rest)) : ∃ o, x.due.Perm (st :: o) ∧
    ∀ more, (x.tasks.set i (more ++ rest)).flatten.Perm (more ++ o) := by
  obtain ⟨hlt, -⟩ := List.getElem?_eq_some_iff.mp h
  refine ⟨(x.tasks.take i).flatten ++ (rest ++ (x.tasks.drop (i + 1)).flatten), ?_, fun more => ?_⟩
  · have hdue := congrArg List.flatten (take_append_cons_drop h)
    rw [List.flatten_append, List.flatten_cons] at hdue
    rw [due, ← hdue]
    exact List.perm_middle
  · rw [List.set_eq_take_append_cons_drop, if_pos hlt, List.flatten_append, List.flatten_cons,
      List.append_assoc]
    exact List.perm_append_comm_assoc ..

structure Sound (x : Registrar) (log : List (SessionRef × CloseReason)) : Prop where
  numbered : x.gateway.Numbered
  enlisted : x.gateway.Enlisted
  balanced : Balanced x.gateway.roster x.due log
  cleared : Cleared x.gateway x.due

namespace Sound

theorem start {g₀ : Gateway} (h₀ : g₀.IsNew) : Sound ⟨g₀, []⟩ [] where
  numbered := h₀.numbered
  enlisted := h₀.enlisted
  balanced := by
    obtain ⟨settings, tools, epoch, rfl⟩ := h₀
    constructor
    case sorted => exact .refl _
    case once => exact fun _ => Nat.zero_le 1
    case delisted => exact fun _ hr => by cases hr
    case closed => exact fun _ hr => by cases hr
    case created | active => rfl
    case counted => exact fun _ => rfl
  cleared := .start h₀

theorem first_of_begin {o : Operation} {g : Gateway} (hst : st ∈ (o.tasks g).flatten) :
    st.counts = false ∧ ∀ r, st ≠ .detach r := by
  cases o with
  | create | close | evictIdle =>
      obtain rfl := List.mem_singleton.mp hst
      exact ⟨rfl, by simp⟩
  | disconnect ids =>
      obtain ⟨l, hl, hst⟩ := List.mem_flatten.mp hst
      obtain rfl := List.mem_singleton.mp hl
      obtain ⟨id, -, rfl⟩ := List.mem_map.mp hst
      exact ⟨rfl, by simp⟩
  | shutdown =>
      obtain ⟨l, hl, hst⟩ := List.mem_flatten.mp hst
      obtain ⟨id, -, rfl⟩ := List.mem_map.mp hl
      obtain rfl := List.mem_singleton.mp hst
      exact ⟨rfl, by simp⟩

theorem act {a : Act} {g' : Gateway} (h : Sound x log) (ha : a.isShut = false)
    (hstep : x.gateway.perform a = some g') :
    Sound { x with gateway := g' } (log ++ x.gateway.departed a g') ∧ x.gateway.Onward g' := by
  obtain ⟨es, hp, -⟩ := posted_perform h.numbered hstep
  exact ⟨{
    numbered := (simulated_perform h.numbered hstep).spares.numbered
    enlisted := h.enlisted.perform h.numbered hstep
    balanced := h.balanced.act ha hstep
    cleared := h.cleared.path hp }, .of_path hp⟩

theorem begin {o : Operation} (h : Sound x log) :
    Sound { x with tasks := x.tasks ++ o.tasks x.gateway } log := by
  have hdue : (x.tasks ++ o.tasks x.gateway).flatten = x.due ++ (o.tasks x.gateway).flatten :=
    List.flatten_append
  refine ⟨h.numbered, h.enlisted, ?_, ?_⟩
  · rw [due, hdue]
    exact h.balanced.begin fun st hst => (first_of_begin hst).1
  · rw [due, hdue]
    refine h.cleared.mono fun r => ?_
    rw [List.mem_append]
    exact or_iff_left fun hd => (first_of_begin hd).2 r rfl

theorem play {g' : Gateway} {more : List Stroke} (h : Sound x log)
    (hi : x.tasks[i]? = some (st :: rest)) (hplay : x.gateway.play st = some (more, g')) :
    Sound ⟨g', x.tasks.set i (more ++ rest)⟩ (log ++ st.mark?.toList) := by
  obtain ⟨o, hdue, hset⟩ := due_play hi
  have hcleared : Cleared x.gateway (st :: o) := h.cleared.mono fun r => hdue.symm.mem_iff
  exact {
    numbered := h.numbered.of_inner (inner_play hplay)
    enlisted := h.enlisted.play hplay
    balanced := ((h.balanced.perm hdue.symm (.refl log)).play hplay).perm (hset more) (.refl _)
    cleared := (hcleared.play hplay).mono fun r => (hset more).mem_iff }

theorem advance (h : Sound x log) (hm : x.advance m = some (log', y)) :
    Sound y (log ++ log') ∧ x.gateway.Onward y.gateway := by
  cases m with
  | act a =>
      unfold Registrar.advance at hm
      dsimp only at hm
      split at hm
      · cases hm
      · rename_i ha
        obtain ⟨g', hstep, heq⟩ := Option.map_eq_some_iff.mp hm
        cases heq
        exact h.act (by simpa using ha) hstep
  | begin o =>
      cases hm
      exact ⟨(List.append_nil log).symm ▸ h.begin, .refl _⟩
  | play i =>
      unfold Registrar.advance at hm
      dsimp only at hm
      split at hm
      · rename_i st rest hi
        obtain ⟨⟨more, g'⟩, hplay, heq⟩ := Option.map_eq_some_iff.mp hm
        cases heq
        exact ⟨h.play hi hplay, .of_play hplay⟩
      · cases hm

theorem replay (h : Sound x log) (hms : x.replay ms = some (log', y)) :
    Sound y (log ++ log') ∧ x.gateway.Onward y.gateway := by
  induction ms generalizing x log log' with
  | nil =>
      cases hms
      exact ⟨(List.append_nil log).symm ▸ h, .refl _⟩
  | cons m ms ih =>
      obtain ⟨⟨log₁, x₁⟩, hm, hms⟩ := Option.bind_eq_some_iff.mp hms
      obtain ⟨⟨log₂, y₁⟩, hrest, heq⟩ := Option.bind_eq_some_iff.mp hms
      cases heq
      obtain ⟨h₁, hon₁⟩ := h.advance hm
      obtain ⟨h₂, hon₂⟩ := ih h₁ hrest
      rw [← List.append_assoc]
      exact ⟨h₂, hon₁.trans hon₂⟩

end Sound

end Registrar

/-- That a session is closed for good: nobody waits on it or can come to wait, it has no sender, and
nothing can be sent to it. -/
def Gateway.Inert (r : SessionRef) (g : Gateway) : Prop :=
  ∃ s, g.session? r = some s ∧ s.status = .closed ∧ s.pending = [] ∧
    s.outbound.attached = false ∧
    (∀ id method, g.register r s id method = .error (.closed s.id)) ∧
    (∀ m, g.offer r m = (.error (.closed s.id), g)) ∧
    ∀ p m, g.deliver p r (.fresh m) = (.failed (.closed s.id), g)

namespace Registrar

/-- That the registry, the sessions and what is counted agree. The log says which sessions have
been counted as closed, and under which reason. -/
structure Consistent (x : Registrar) (log : List (SessionRef × CloseReason)) : Prop where
  unique : x.gateway.liveIds.Nodup
  found : ∀ r s, x.gateway.session? r = some s → ¬ x.Closing r →
    (r ∈ x.gateway.live ↔ s.status ≠ .closed)
  refused : ∀ r s, x.gateway.session? r = some s → s.status = .closed → s.pending = [] ∧
    ∀ id method, x.gateway.register r s id method = .error (.closed s.id)
  inert : ∀ r s, x.gateway.session? r = some s → s.status = .closed → ¬ x.Closing r →
    x.gateway.Inert r
  once : (log.map Prod.fst).Nodup
  logged : ∀ r s, x.gateway.session? r = some s → ¬ x.Closing r →
    (r ∈ log.map Prod.fst ↔ s.status = .closed)
  counted : ∀ reason : CloseReason,
    x.gateway.metrics.closed.count reason.label = log.countP fun m => m.2 = reason
  created : x.gateway.metrics.created + x.due.count .countOpened = x.gateway.liveCount +
    (x.due.filterMap Stroke.mark?).length +
      x.gateway.metrics.closed.closings
  active : x.gateway.metrics.active + x.due.count .raise =
    x.gateway.liveCount + x.due.count .lower
  settled : x.Settled → x.gateway.metrics.active = x.gateway.liveCount ∧
    x.gateway.metrics.created - x.gateway.metrics.closed.closings = x.gateway.metrics.active

namespace Sound

variable {x y : Registrar} {log log' : List (SessionRef × CloseReason)} {r : SessionRef}
  {s : Session}

theorem inert_of_closed {g : Gateway} (hs : g.session? r = some s) (hc : s.status = .closed)
    (hp : s.pending = []) (ha : s.outbound.attached = false) : g.Inert r := by
  refine ⟨s, hs, hc, hp, ha, fun id method => ?_, fun m => ?_, fun p m => ?_⟩
  · simp only [Gateway.register, Session.register, if_pos hc]
    rfl
  · simp [Gateway.offer, hs, ha]
  · simp [Gateway.deliver, hs, ha]

theorem not_due (hr : ¬ x.Closing r) (st : Stroke) (hst : st.closes r = true) : st ∉ x.due :=
  fun hmem => hr ⟨st, hmem, hst⟩

theorem found (h : Sound x log) (hs : x.gateway.session? r = some s) (hr : ¬ x.Closing r) :
    r ∈ x.gateway.live ↔ s.status ≠ .closed := by
  have hclosed : x.gateway.roster.closed[r]? = some s.isClosed := by
    rw [Gateway.getElem?_roster, hs, Option.map_some]
  have hiff := h.balanced.closed r (List.getElem?_eq_some_iff.mp hclosed).1
  have hnone : x.due.count (.finish r) = 0 :=
    List.count_eq_zero.mpr (not_due hr (.finish r) (by simp [Stroke.closes]))
  rw [hclosed] at hiff
  simp only [hnone, and_true, Option.some.injEq, Session.isClosed, decide_eq_true_eq] at hiff
  rw [ne_eq, hiff, not_not]
  rfl

theorem logged (h : Sound x log) (hs : x.gateway.session? r = some s) (hr : ¬ x.Closing r) :
    r ∈ log.map Prod.fst ↔ s.status = .closed := by
  have hlt : r < x.gateway.roster.closed.length := by
    simpa [Gateway.roster] using Gateway.lt_of_session? hs
  have hdue : r ∉ (x.due.filterMap Stroke.mark?).map Prod.fst := by
    intro hmem
    obtain ⟨⟨q, reason⟩, hmark, rfl⟩ := List.mem_map.mp hmem
    obtain ⟨st, hst, hmark⟩ := List.mem_filterMap.mp hmark
    cases st with
    | countClosed q reason =>
        cases hmark
        exact hr ⟨_, hst, by simp [Stroke.closes]⟩
    | _ => cases hmark
  have hmarks := h.balanced.mem_marks hlt
  rw [List.map_append, List.mem_append, or_iff_right hdue] at hmarks
  rw [hmarks]
  exact (not_congr (h.found hs hr)).trans not_not

theorem inert (h : Sound x log) (hs : x.gateway.session? r = some s) (hc : s.status = .closed)
    (hr : ¬ x.Closing r) : x.gateway.Inert r := by
  have hregular := h.cleared.regular r s hs (not_due hr (.detach r) (by simp [Stroke.closes]))
  exact inert_of_closed hs hc (h.cleared.vacant r s hs hc) (by simpa [hc] using hregular)

theorem created (h : Sound x log) :
    x.gateway.metrics.created + x.due.count .countOpened = x.gateway.liveCount +
      (x.due.filterMap Stroke.mark?).length +
        x.gateway.metrics.closed.closings := by
  have hcreated : x.gateway.metrics.created + _ = _ := h.balanced.created
  have hsum : x.gateway.metrics.closed.closings = _ := h.balanced.closings
  rw [hcreated, hsum]
  exact h.balanced.length_marks.symm

theorem settled (h : Sound x log) (hx : x.Settled) :
    x.gateway.metrics.active = x.gateway.liveCount ∧
      x.gateway.metrics.created - x.gateway.metrics.closed.closings =
        x.gateway.metrics.active := by
  have hnone (st : Stroke) (hst : st.isFirst = false) : x.due.count st = 0 :=
    List.count_eq_zero.mpr fun hmem => by simp [hx st hmem] at hst
  have hmarks : x.due.filterMap Stroke.mark? = [] :=
    List.filterMap_eq_nil_iff.mpr fun st hmem => by
      cases st with
      | countClosed r reason => exact absurd (hx _ hmem) (by simp [Stroke.isFirst])
      | _ => rfl
  have hactive : x.gateway.metrics.active + x.due.count .raise =
      x.gateway.liveCount + x.due.count .lower := h.balanced.active
  have hcreated := h.created
  rw [hnone .raise rfl, hnone .lower rfl] at hactive
  rw [hnone .countOpened rfl, hmarks, List.length_nil] at hcreated
  omega

theorem consistent (h : Sound x log) : x.Consistent log where
  unique := Gateway.nodup_liveIds h.enlisted
  found _ _ := h.found
  refused r s hs hc := by
    refine ⟨h.cleared.vacant r s hs hc, fun id method => ?_⟩
    simp only [Gateway.register, Session.register, if_pos hc]
    rfl
  inert _ _ := h.inert
  once := by
    have hmarks := (List.nodup_append.mp (h.balanced.sorted.nodup_iff.mpr List.nodup_range)).2.1
    rw [List.map_append] at hmarks
    exact (List.nodup_append.mp hmarks).2.1
  logged _ _ := h.logged
  counted := h.balanced.counted
  created := h.created
  active := h.balanced.active
  settled := h.settled

end Sound

end Registrar

theorem Gateway.Inert.onward {g g' : Gateway} {r : SessionRef} (h : g.Inert r) (hon : g.Onward g')
    (hvacant : ∀ s, g'.session? r = some s → s.status = .closed → s.pending = []) :
    g'.Inert r := by
  obtain ⟨s, hs, hc, -, ha, -⟩ := h
  obtain ⟨s', hs', hon⟩ := hon r s hs
  have hc' := hon.closed hc
  have ha' : s'.outbound.attached = false := by
    cases hatt : s'.outbound.attached with
    | false => rfl
    | true => simp [hon.attached hatt] at ha
  exact Registrar.Sound.inert_of_closed hs' hc' (hvacant s' hs' hc') ha'

/-- Whatever operations upon the registry go on side by side, and whatever else happens in between:
the registry, the sessions and the metrics are consistent at every point, and sessions only go
forward from there. -/
theorem registry_consistent {g₀ : Gateway} {ms : List Move} {x : Registrar}
    {log : List (SessionRef × CloseReason)} (h₀ : g₀.IsNew)
    (hx : Registrar.replay ms ⟨g₀, []⟩ = some (log, x)) :
    x.Consistent log ∧ ∀ ns log' y, x.replay ns = some (log', y) →
      (∀ r s, x.gateway.session? r = some s → ∃ s', y.gateway.session? r = some s' ∧
        s'.id = s.id ∧ s.status.rank ≤ s'.status.rank ∧
        (s.status = .closed → s'.status = .closed)) ∧
      ∀ r, x.gateway.Inert r → y.gateway.Inert r := by
  obtain ⟨hsound, -⟩ := (Registrar.Sound.start h₀).replay hx
  refine ⟨hsound.consistent, fun ns log' y hy => ?_⟩
  obtain ⟨hsound', hon⟩ := hsound.replay hy
  constructor
  · intro r s hs
    obtain ⟨s', hs', hon⟩ := hon r s hs
    exact ⟨s', hs', hon.named, hon.advanced, hon.closed⟩
  · exact fun r hr => hr.onward hon (hsound'.cleared.vacant r)

/-- What opens two sessions and closes one of them in the course of a shutdown, which finds it gone
when it comes to it; the other is in the registry before it is counted. -/
def Move.racing : List Move :=
  [.begin (.create ["a"] "owner" .server {}), .play 0, .play 0, .play 0,
    .begin (.create ["a", "b"] "owner" .client {}), .play 1, .play 1,
    .begin .shutdown, .begin (.close "a" .explicit), .play 4, .play 3, .play 2, .play 4, .play 3,
    .play 3, .play 1, .play 4, .play 4, .play 4, .play 3, .play 3, .play 3, .play 3, .play 4,
    .play 4]

theorem registry_consistent_racing : ∃ log x,
    Registrar.replay Move.racing ⟨Gateway.new {} [], []⟩ = some (log, x) ∧
    log = [(1, .shutdown), (0, .explicit)] ∧ x.due = [] ∧ x.Consistent log ∧
    x.gateway.Inert 0 := by
  have hreplay : (Registrar.replay Move.racing ⟨Gateway.new {} [], []⟩).any (fun last =>
      last.1 = [(1, .shutdown), (0, .explicit)] ∧ last.2.due = [] ∧
        (last.2.gateway.session? 0).any Session.isClosed) = true := by decide +kernel
  obtain ⟨⟨log, x⟩, hx, h⟩ := (Option.any_eq_true ..).mp hreplay
  obtain ⟨hlog, hdue, hclosed⟩ := of_decide_eq_true h
  obtain ⟨s, hs, hc⟩ := (Option.any_eq_true ..).mp hclosed
  obtain ⟨hconsistent, -⟩ := registry_consistent ⟨{}, [], 0, rfl⟩ hx
  have hnone : ¬ x.Closing 0 := by simp [Registrar.Closing, hdue]
  exact ⟨log, x, hx, hlog, hdue, hconsistent,
    hconsistent.inert 0 s hs (by simpa [Session.isClosed] using hc) hnone⟩

end AgentGateway
