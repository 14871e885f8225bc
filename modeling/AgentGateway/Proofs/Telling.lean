import AgentGateway.Proofs.Broadcast

namespace AgentGateway.Broadcast

open Gateway

variable {p : ProcessId} {m : Message} {E : Finset SessionRef} {n n' : Notice}
  {base g g' : Gateway} {r q : SessionRef} {a : Act} {v : Move} {xs : List Moment} {y : Moment}

inductive Own (m : Message) (E : Finset SessionRef) (n : Notice) (g : Gateway) (n' : Notice)
    (g' : Gateway) : Prop
  | tries : Attempted m E n g n' g' → n'.stage = .sending n'.pending → Own m E n g n' g'
  | parts (r : SessionRef) : n.stage = .sending [] → r ∈ n.failed → Parted [r] g g' →
      n' = n.parted r → Own m E n g n' g'
  | ends : n.stage = .sending [] → Parted n.failed g g' → n' = { n with stage := .done } →
      Own m E n g n' g'

theorem notice_of_own (hprocess : ∀ z, g.process? p = some z → ∃ n, z = .notice n)
    (hown : v.isOwn p = true) (hstep : step p g v = some g') : ∃ n, g.notice? p = some n := by
  cases v with
  | act a =>
      obtain rfl := Act.isStepOf_iff.mp hown
      obtain ⟨z, hz, -⟩ := Option.bind_eq_some_iff.mp hstep
      obtain ⟨n, rfl⟩ := hprocess z hz
      exact ⟨n, notice?_eq hz⟩
  | tell r | part r =>
      obtain ⟨n, hn, -⟩ := Option.bind_eq_some_iff.mp hstep
      exact ⟨n, hn⟩

theorem step_tell (hn : g.notice? p = some n) (hstep : step p g (.tell r) = some g') :
    ∃ d, n.pending.lookup r = some d ∧ g' = (g.deliver p r d).2.setProcess p
      (.notice (n.tried r (g.deliver p r d).1)) := by
  obtain ⟨n₁, hn₁, hstep⟩ := Option.bind_eq_some_iff.mp hstep
  cases hn.symm.trans hn₁
  obtain ⟨d, hd, hstep⟩ := Option.bind_eq_some_iff.mp hstep
  exact ⟨d, hd, (Option.some.inj hstep).symm⟩

theorem step_part (hn : g.notice? p = some n) (hstep : step p g (.part r) = some g') :
    n.stage = .sending [] ∧ r ∈ n.failed ∧
      g' = (g.disconnect r).setProcess p (.notice (n.parted r)) := by
  obtain ⟨n₁, hn₁, hstep⟩ := Option.bind_eq_some_iff.mp hstep
  cases hn.symm.trans hn₁
  obtain ⟨⟨hstage, hr⟩, hstep⟩ := Option.ite_none_right_eq_some.mp hstep
  exact ⟨hstage, hr, (Option.some.inj hstep).symm⟩

theorem own_step (h : Fits m E n) (hstage : n.stage = .sending n.pending ∨ n.stage = .done)
    (hg : g.Registered) (hknown : ∀ r ∈ E, r < g.sessions.length) (hn : g.notice? p = some n)
    (hown : v.isOwn p = true) (hstep : step p g v = some g') :
    ∃ n', g'.notice? p = some n' ∧ Own m E n g n' g' := by
  have hlost (r : SessionRef) (hr : r ∈ n.failed) : r < g.sessions.length :=
    hknown r (h.known r (List.mem_append_right _ hr))
  cases v with
  | act a =>
      obtain rfl := Act.isStepOf_iff.mp hown
      obtain ⟨z, hz, hstep⟩ := Option.bind_eq_some_iff.mp hstep
      cases (process?_of_notice? hn).symm.trans hz
      obtain ⟨n', g₁, hnotify, rfl⟩ := of_staged hstep
      unfold notify? at hnotify
      split at hnotify
      case h_1 hstart => rw [hstart] at hstage; rcases hstage with hstage | hstage <;> cases hstage
      case h_2 hnone =>
        cases hnotify
        refine ⟨_, notice?_setProcess ((notice?_of_inner (inner_disconnectEach _)).trans hn), ?_⟩
        exact .ends hnone (parted_disconnectEach n.failed hg hlost).setProcess rfl
      case h_3 pending hne hsome =>
        dsimp only at hnotify
        split at hnotify <;> cases hnotify
        refine ⟨_, notice?_setProcess ((notice?_of_inner (inner_tellEach _ _)).trans hn), ?_⟩
        have hsame : n = n.sending ([] ++ pending) := by
          rw [List.nil_append, Notice.sending, ← hsome]
        have htold := attempted_tellEach pending (g := g) (p := p) (n := n) (hsame ▸ h)
        rw [← hsame] at htold
        exact .tries htold.setProcess rfl
      case h_4 => cases hnotify
  | tell r =>
      obtain ⟨d, hd, rfl⟩ := step_tell hn hstep
      refine ⟨_, notice?_setProcess ((notice?_of_inner inner_deliver).trans hn), ?_⟩
      obtain ⟨before, after, hp, -⟩ := List.lookup_eq_some_iff.mp hd
      rw [Notice.tried_eq hp h.nodup.of_append_left]
      exact .tries (attempted_note hp h rfl).setProcess rfl
  | part r =>
      obtain ⟨hnone, hr, rfl⟩ := step_part hn hstep
      refine ⟨_, notice?_setProcess ((notice?_of_inner inner_disconnect).trans hn), ?_⟩
      exact .parts r hnone hr (parted_disconnect hg (hlost r hr)).setProcess rfl

/-- That the sessions that the process has taken note of are of the registry that it started with,
and that those of this registry that are still there have been there from the start. The process may
be gone. -/
structure Sound (p : ProcessId) (E : Finset SessionRef) (base g : Gateway) : Prop where
  registered : g.Registered
  numbered : g.Numbered
  begun : p < g.nextProcess
  process : ∀ z, g.process? p = some z → ∃ n, z = .notice n
  start : base.Registered
  taken : ∀ r ∈ E, r ∈ base.live
  ages : base.Ages g
  former : ∀ r ∈ g.live, r < base.sessions.length → r ∈ base.live

namespace Sound

theorem known (h : Sound p E base g) (hr : r < base.sessions.length) : r < g.sessions.length := by
  obtain ⟨s, hs, -⟩ := h.ages r _ (List.getElem?_eq_getElem hr)
  exact lt_of_session? hs

theorem opened (h : Sound p E base g) (hr : r ∈ E) : r < base.sessions.length :=
  h.start.opened r (h.taken r hr)

theorem later (h : Sound p E base g) (hq : q ∈ E) (hs : g.Succeeds r q) :
    base.sessions.length ≤ r := by
  by_contra hlt
  have hr : r ∈ base.live := h.former r hs.live (Nat.lt_of_not_le hlt)
  have hnamed : base.idOf? r = base.idOf? q := by
    rw [← h.ages.idOf? (Nat.lt_of_not_le hlt), hs.named, h.ages.idOf? (h.opened hq)]
  exact hs.gone.absent (h.start.eq_of_idOf? (h.taken q hq) hr hnamed ▸ hs.live)

theorem process?_other (h : Sound p E base g) (ha : a ≠ .control p)
    (hstep : g.perform a = some g') {z : Process} (hz : g'.process? p = some z) :
    g.process? p = some z ∧ ∃ n, z = .notice n := by
  obtain ⟨y, hy, hk⟩ := kindred_begun h.numbered hstep ha h.begun hz
  obtain ⟨n, rfl⟩ := h.process y hy
  exact ⟨hk.notice ▸ hy, n, hk.notice⟩

theorem notice_setProcess (z : Process) (hz : (g.setProcess p (.notice n)).process? p = some z) :
    ∃ n, z = .notice n := by
  rw [process?_setProcess, if_pos rfl] at hz
  obtain ⟨-, -, rfl⟩ := Option.map_eq_some_iff.mp hz
  exact ⟨n, rfl⟩

theorem act (h : Sound p E base g) (hstep : g.perform a = some g') : Sound p E base g' := by
  obtain ⟨es, hp, -⟩ := posted_perform h.numbered hstep
  have hspares := (simulated_perform h.numbered hstep).spares
  constructor
  case registered => exact h.registered.perform h.numbered hstep
  case numbered => exact hspares.numbered
  case begun => exact Nat.lt_of_lt_of_le h.begun hspares.grown
  case process =>
    intro z hz
    by_cases ha : a = .control p
    · subst ha
      obtain ⟨x, hx, hstep⟩ := Option.bind_eq_some_iff.mp hstep
      obtain ⟨n, rfl⟩ := h.process x hx
      obtain ⟨n', g₁, -, rfl⟩ := of_staged hstep
      exact notice_setProcess z hz
    · exact (h.process?_other ha hstep hz).2
  case start => exact h.start
  case taken => exact h.taken
  case ages => exact h.ages.comp hp.ages
  case former =>
    intro r hr hlt
    refine h.former r (by_contra fun hgone => ?_) hlt
    exact absent_perform h.registered.nodup (h.known hlt) hgone hstep hr

theorem keep (h : Sound p E base g) (hi : g'.inner = g.inner) (hr : g'.Registered)
    (ha : g.Ages g') (hl : g'.live.Sublist g.live) :
    Sound p E base (g'.setProcess p (.notice n)) := by
  have hspares := spares_of_inner (o := some p) h.numbered hi
  have hspares := hspares.trans (spares_setProcess (x := .notice n) hspares.numbered)
  exact ⟨hr.of_desk desk_setProcess, hspares.numbered, Nat.lt_of_lt_of_le h.begun hspares.grown,
    notice_setProcess, h.start, h.taken, h.ages.comp ha,
    fun r hr hlt => h.former r (hl.subset hr) hlt⟩

theorem step (h : Sound p E base g) (hlost : ∀ n, g.notice? p = some n → ∀ r ∈ n.failed, r ∈ E)
    (hstep : Broadcast.step p g v = some g') : Sound p E base g' := by
  cases v with
  | act a => exact h.act hstep
  | tell r =>
      obtain ⟨n, hn⟩ := notice_of_own h.process rfl hstep
      obtain ⟨d, -, rfl⟩ := step_tell hn hstep
      have hlive : (g.deliver p r d).2.live = g.live := delivers_deliver.live
      exact h.keep inner_deliver h.registered.deliver ages_deliver (hlive ▸ .refl _)
  | part r =>
      obtain ⟨n, hn⟩ := notice_of_own h.process rfl hstep
      obtain ⟨-, hr, rfl⟩ := step_part hn hstep
      have hparted := parted_disconnect h.registered (h.known (h.opened (hlost n hn r hr)))
      exact h.keep inner_disconnect hparted.registered hparted.ages hparted.live

end Sound

section Snoc

theorem queuedIn_snoc : queuedIn p r (xs ++ [y]) = queuedIn p r xs ++ y.queued p r := by
  simp [queuedIn]

theorem Moment.queued_of_outbox (h : y.after.outbox r = y.before.outbox r) :
    y.queued p r = [] := by
  simp [queued, growth, h]

theorem Moment.queued_of_other (h : y.move.isOwn p = false) : y.queued p r = [] := by
  simp [queued, h]

theorem Moment.Leaves.untold (h : y.Leaves r) : y.queued p r = [] :=
  queued_of_outbox (by rw [outbox, outbox, h.session])

theorem Moment.Leaves.spares (h : y.Leaves r) : y.Spares r :=
  ⟨congrArg (Option.map Session.unqueued) h.session, h.live⟩

theorem Moment.Leaves.gone (h : y.Leaves r) (hgone : y.before.Gone r) : y.after.Gone r := by
  obtain ⟨⟨s, hs, hclosed⟩, habsent⟩ := hgone
  exact ⟨⟨s, h.session.trans hs, hclosed⟩, mt h.live.mp habsent⟩

theorem Moment.Fails.of_notice (h : y.Fails p r) (hn : y.before.notice? p = some n) :
    r ∈ n.awaited := by
  obtain ⟨n₁, hn₁, hr⟩ := h.awaited
  cases hn.symm.trans hn₁
  exact hr

theorem Moment.Fails.of_notice' (h : y.Fails p r) (hn' : y.after.notice? p = some n') :
    r ∈ n'.failed := by
  obtain ⟨n₁, hn₁, hr⟩ := h.failed
  cases hn'.symm.trans hn₁
  exact hr

theorem Served.snoc {ms : List Message} (h : Served p ms r xs) (hfails : ¬ y.Fails p r)
    (hspares : y.move.isOwn p = true → y.Spares r) :
    Served p (ms ++ y.queued p r) r (xs ++ [y]) where
  queued := by rw [queuedIn_snoc, h.queued]
  unfailed z hz := by
    rcases List.mem_append.mp hz with hz | hz
    · exact h.unfailed z hz
    · exact List.mem_singleton.mp hz ▸ hfails
  spared z hz := by
    rcases List.mem_append.mp hz with hz | hz
    · exact h.spared z hz
    · exact List.mem_singleton.mp hz ▸ hspares

theorem Untouched.snoc (h : Untouched p r xs) (hy : y.move.isOwn p = true → y.Leaves r) :
    Untouched p r (xs ++ [y]) where
  untold := by
    have hquiet : y.queued p r = [] := by
      cases hown : y.move.isOwn p with
      | false => exact Moment.queued_of_other hown
      | true => exact (hy hown).untold
    rw [queuedIn_snoc, h.untold, hquiet, List.append_nil]
  left z hz := by
    rcases List.mem_append.mp hz with hz | hz
    · exact h.left z hz
    · exact List.mem_singleton.mp hz ▸ hy

end Snoc

inductive Standing (p : ProcessId) (m : Message) (n : Notice) (xs : List Moment) (g : Gateway)
    (r : SessionRef) : Prop
  | awaited : r ∈ n.awaited → Served p [] r xs → Standing p m n xs g r
  | lost : r ∉ n.awaited → queuedIn p r xs = [] → (∃ y ∈ xs, y.Fails p r) →
      r ∈ n.failed ∨ g.Gone r → Standing p m n xs g r
  | told : r ∉ n.awaited → r ∉ n.failed → Served p [m] r xs → Standing p m n xs g r

structure Underway (p : ProcessId) (m : Message) (E : Finset SessionRef) (n : Notice)
    (xs : List Moment) (g : Gateway) : Prop where
  fits : Fits m E n
  standing : ∀ r ∈ E, Standing p m n xs g r
  delivered : n.delivered = ∑ r ∈ E, (queuedIn p r xs).length
  stage : n.stage = .sending n.pending ∨ n.stage = .done ∧ ∀ r ∈ n.failed, g.Gone r

theorem Standing.still (h : Standing p m n xs y.before r)
    (hawaited : r ∈ n'.awaited ↔ r ∈ n.awaited)
    (hfailed : r ∈ n.failed → r ∈ n'.failed ∨ y.after.Gone r) (hback : r ∈ n'.failed → r ∈ n.failed)
    (hfails : ¬ y.Fails p r) (hquiet : y.queued p r = [])
    (hspares : y.move.isOwn p = true → r ∉ n.failed → y.Spares r)
    (hgone : y.before.Gone r → y.after.Gone r) (hnodup : (n.awaited ++ n.failed).Nodup) :
    Standing p m n' (xs ++ [y]) y.after r := by
  have hserved {ms : List Message} (hs : Served p ms r xs) (hlost : r ∉ n.failed) :
      Served p ms r (xs ++ [y]) := by
    have hs := hs.snoc hfails fun hown => hspares hown hlost
    rwa [hquiet, List.append_nil] at hs
  cases h with
  | awaited hr hs =>
      exact .awaited (hawaited.mpr hr) (hserved hs (List.disjoint_of_nodup_append hnodup hr))
  | lost hr huntold hlost hstanding =>
      obtain ⟨z, hz, hlost⟩ := hlost
      refine .lost (mt hawaited.mp hr) ?_ ⟨z, List.mem_append_left _ hz, hlost⟩ ?_
      · rw [queuedIn_snoc, huntold, hquiet, List.append_nil]
      · exact hstanding.elim hfailed fun h => .inr (hgone h)
  | told hr hlost hs => exact .told (mt hawaited.mp hr) (mt hback hlost) (hserved hs hlost)

theorem sum_queuedIn_snoc (hy : y.move.isOwn p = true) :
    ∑ r ∈ E, (queuedIn p r (xs ++ [y])).length =
      ∑ r ∈ E, (queuedIn p r xs).length + ∑ r ∈ E, (growth r y.before y.after).length := by
  rw [← Finset.sum_add_distrib]
  refine Finset.sum_congr rfl fun r _ => ?_
  rw [queuedIn_snoc, List.length_append, Moment.queued, if_pos hy]

theorem Underway.other (h : Underway p m E n xs g) (hs : Sound p E base g) (ha : a ≠ .control p)
    (hstep : g.perform a = some g') : Underway p m E n (xs ++ [⟨g, .act a, g'⟩]) g' := by
  have hother : (Move.act a).isOwn p = false := eq_false_of_ne_true (mt Act.isStepOf_iff.mp ha)
  have hquiet (r : SessionRef) : Moment.queued p r ⟨g, .act a, g'⟩ = [] :=
    Moment.queued_of_other hother
  have hgone (r : SessionRef) (hr : g.Gone r) : g'.Gone r :=
    hr.perform hs.numbered hs.registered.nodup hstep
  constructor
  case fits => exact h.fits
  case standing =>
    exact fun r hr => (h.standing r hr).still (y := ⟨g, .act a, g'⟩) .rfl .inl id
      (fun hfails => by cases hother.symm.trans hfails.own) (hquiet r)
      (fun hown => by cases hother.symm.trans hown) (hgone r) h.fits.nodup
  case delivered =>
    rw [h.delivered]
    exact Finset.sum_congr rfl fun r _ => by rw [queuedIn_snoc, hquiet, List.append_nil]
  case stage => exact h.stage.imp_right fun h => ⟨h.1, fun r hr => hgone r (h.2 r hr)⟩

section Own

variable (h : Underway p m E n xs g) (hn : g.notice? p = some n) (hn' : g'.notice? p = some n')
  (hown : v.isOwn p = true)

include h hn hn' hown

theorem Underway.tries (ht : Attempted m E n g n' g') (hstage : n'.stage = .sending n'.pending) :
    Underway p m E n' (xs ++ [⟨g, v, g'⟩]) g' := by
  have hspares (r : SessionRef) : Moment.Spares r ⟨g, v, g'⟩ :=
    ⟨mark_of_profile ht.delivers.profile, iff_of_eq (congrArg (r ∈ ·) ht.delivers.live)⟩
  have hqueued (r : SessionRef) : Moment.queued p r ⟨g, v, g'⟩ = growth r g g' := if_pos hown
  constructor
  case fits => exact ht.fits
  case standing =>
    intro r hr
    by_cases hawaited : r ∈ n.awaited
    · have hs : Served p [] r xs := by
        cases h.standing r hr with
        | awaited _ hs => exact hs
        | lost hr | told hr => exact absurd hawaited hr
      have hsnoc (hlost : r ∉ n'.failed) :=
        hs.snoc (y := ⟨g, v, g'⟩) (fun hfails => hlost (hfails.of_notice' hn')) fun _ => hspares r
      cases ht.outcome r hawaited with
      | awaited hr' hbox =>
          have hs' := hsnoc (List.disjoint_of_nodup_append ht.fits.nodup hr')
          rw [Moment.queued_of_outbox hbox] at hs'
          exact .awaited hr' hs'
      | told hr' hlost hbox =>
          have hs' := hsnoc hlost
          rw [hqueued, growth, hbox, List.drop_left] at hs'
          exact .told hr' hlost hs'
      | lost hr' hlost hbox hshut =>
          refine .lost hr' ?_ ⟨_, List.mem_append_right _ (List.mem_singleton_self _), hown,
            ⟨n, hn, hawaited⟩, ⟨n', hn', hlost⟩, hshut⟩ (.inl hlost)
          rw [queuedIn_snoc, hs.queued, Moment.queued_of_outbox hbox, List.append_nil]
    · obtain ⟨hr', hsame, hs⟩ := ht.others r hawaited
      have hleaves : Moment.Leaves r ⟨g, v, g'⟩ := ⟨hs, (hspares r).live⟩
      exact (h.standing r hr).still (y := ⟨g, v, g'⟩) (iff_of_false hr' hawaited)
        (fun hr => .inl (hsame.mpr hr)) hsame.mp (fun hfails => hawaited (hfails.of_notice hn))
        hleaves.untold (fun _ _ => hspares r) hleaves.gone h.fits.nodup
  case delivered => rw [ht.delivered, h.delivered, sum_queuedIn_snoc hown]
  case stage => exact .inl hstage

omit hn' in
theorem Underway.parted (hs : Sound p E base g) {rs : List SessionRef} (hrs : rs ⊆ n.failed)
    (hparted : Parted rs g g') (hnone : n.awaited = []) (hnone' : n'.awaited = [])
    (hfits : Fits m E n') (hfailed : ∀ r ∈ n.failed, r ∉ rs → r ∈ n'.failed)
    (hback : n'.failed ⊆ n.failed) (hdelivered : n'.delivered = n.delivered)
    (hstage : n'.stage = .sending n'.pending ∨ n'.stage = .done ∧ ∀ r ∈ n'.failed, g'.Gone r) :
    Underway p m E n' (xs ++ [⟨g, v, g'⟩]) g' := by
  constructor
  case fits => exact hfits
  case standing =>
    intro r hr
    refine (h.standing r hr).still (y := ⟨g, v, g'⟩) (by rw [hnone, hnone']) (fun hlost => ?_)
      (fun hlost => hback hlost) (fun hfails => ?_) (Moment.queued_of_outbox (hparted.queues r))
      (fun _ hlost => ?_) (fun hgone => ?_) h.fits.nodup
    · by_cases hr : r ∈ rs
      · exact .inr (hparted.gone r hr)
      · exact .inl (hfailed r hlost hr)
    · have hr := hfails.of_notice hn
      rw [hnone] at hr
      cases hr
    · rcases hparted.others r fun hr => hlost (hrs hr) with ⟨hs, hl⟩ | ⟨q, hq, hsucceeds⟩
      · exact Moment.Leaves.spares ⟨hs, hl⟩
      · have hqE := h.fits.known q (List.mem_append_right _ (hrs hq))
        exact absurd (hs.opened hr) (Nat.not_lt.mpr (hs.later hqE hsucceeds))
    · exact hgone.keep hparted.ages fun hr => hparted.live.subset hr
  case delivered =>
    have hnothing : ∑ r ∈ E, (growth r g g').length = 0 :=
      Finset.sum_eq_zero fun r _ => by rw [growth, hparted.queues, List.drop_length]; rfl
    rw [hdelivered, h.delivered, sum_queuedIn_snoc hown, hnothing, Nat.add_zero]
  case stage => exact hstage

theorem Underway.own (hs : Sound p E base g) (hthis : Own m E n g n' g') :
    Underway p m E n' (xs ++ [⟨g, v, g'⟩]) g' := by
  have hawaited (hnone : n.stage = .sending []) : n.awaited = [] := by
    rw [Notice.awaited, Notice.pending, hnone, List.map_nil]
  cases hthis with
  | tries ht hstage => exact h.tries hn hn' hown ht hstage
  | parts r hnone hr hparted heq =>
      subst heq
      have hsub : (n.parted r).failed.Sublist n.failed := List.filter_sublist
      refine h.parted hn hown hs (by simpa using hr) hparted (hawaited hnone) (hawaited hnone)
        ⟨fun q hq => ?_, ?_, h.fits.messages⟩ (fun q hq hne => ?_) hsub.subset rfl (.inl ?_)
      · exact h.fits.known q ((hsub.append_left _).subset hq)
      · exact h.fits.nodup.sublist (hsub.append_left _)
      · exact List.mem_filter.mpr ⟨hq, by simpa using hne⟩
      · have hpending : (n.parted r).pending = n.pending := rfl
        rw [hpending, Notice.pending, hnone]
        exact hnone
  | ends hnone hparted heq =>
      subst heq
      have hfailed := h.fits.nodup.of_append_right
      refine h.parted hn hown hs (List.Subset.refl _) hparted (hawaited hnone) rfl
        ⟨fun q hq => h.fits.known q (List.mem_append_right _ hq), hfailed,
          List.forall_mem_nil _⟩
        (fun q hq hne => absurd hq hne) (List.Subset.refl _) rfl (.inr ⟨rfl, hparted.gone⟩)

end Own

def Heir (p : ProcessId) (E : Finset SessionRef) (r : SessionRef) (xs : List Moment) (g : Gateway) :
    Prop :=
  ∃ q ∈ E, (∃ y ∈ xs, y.Fails p q) ∧ g.idOf? r = g.idOf? q

structure Tells (p : ProcessId) (m : Message) (E : Finset SessionRef) (base : Gateway)
    (xs : List Moment) (g : Gateway) : Prop where
  sound : Sound p E base g
  others : ∀ r, r < base.sessions.length → r ∉ E → Untouched p r xs
  later : ∀ r, base.sessions.length ≤ r →
    queuedIn p r xs = [] ∧ (Untouched p r xs ∨ Heir p E r xs g)
  call : ∀ n, g.notice? p = some n → Underway p m E n xs g

theorem Own.apart (h : Own m E n g n' g') (hfits : Fits m E n) (hr : r ∉ E) :
    g'.outbox r = g.outbox r ∧
      (Moment.Leaves r ⟨g, v, g'⟩ ∨ ∃ q ∈ n.failed, g.Succeeds r q) := by
  have hparted {rs : List SessionRef} (hparted : Parted rs g g') (hrs : rs ⊆ n.failed) :
      g'.outbox r = g.outbox r ∧
        (Moment.Leaves r ⟨g, v, g'⟩ ∨ ∃ q ∈ n.failed, g.Succeeds r q) := by
    have hnot : r ∉ rs := fun hmem => hr (hfits.known r (List.mem_append_right _ (hrs hmem)))
    refine ⟨hparted.queues r, (hparted.others r hnot).imp (fun h => ⟨h.1, h.2⟩) ?_⟩
    rintro ⟨q, hq, hsucceeds⟩
    exact ⟨q, hrs hq, hsucceeds⟩
  cases h with
  | tries ht =>
      obtain ⟨-, -, hs⟩ := ht.others r fun hmem => hr (hfits.known r (List.mem_append_left _ hmem))
      exact ⟨by rw [outbox, outbox, hs], .inl ⟨hs, iff_of_eq (congrArg (r ∈ ·) ht.delivers.live)⟩⟩
  | parts q _ hq hpart => exact hparted hpart (by simpa using hq)
  | ends _ hpart => exact hparted hpart (List.Subset.refl _)

theorem Underway.failed (h : Underway p m E n xs g) (hq : q ∈ n.failed) :
    q ∈ E ∧ ∃ y ∈ xs, y.Fails p q := by
  have hqE := h.fits.known q (List.mem_append_right _ hq)
  refine ⟨hqE, ?_⟩
  cases h.standing q hqE with
  | awaited hr => exact absurd hq (List.disjoint_of_nodup_append h.fits.nodup hr)
  | lost _ _ hlost => exact hlost
  | told _ hnot => exact absurd hq hnot

theorem Own.idOf? (h : Own m E n g n' g') (hr : r < g.sessions.length) :
    g'.idOf? r = g.idOf? r := by
  cases h with
  | tries ht =>
      have hmark := congrArg (Option.map Session.id) (mark_of_profile (r := r) ht.delivers.profile)
      rwa [Option.map_map, Option.map_map] at hmark
  | parts _ _ _ hparted | ends _ hparted => exact hparted.ages.idOf? hr

theorem Heir.keep (h : Heir p E r xs g) (hs : Sound p E base g)
    (hid : ∀ r, r < g.sessions.length → g'.idOf? r = g.idOf? r) :
    Heir p E r (xs ++ [y]) g' := by
  obtain ⟨q, hq, ⟨z, hz, hlost⟩, hnamed⟩ := h
  have hlt := hs.known (hs.opened hq)
  have hr : r < g.sessions.length := by
    have hs : g.session? q = some _ := List.getElem?_eq_getElem hlt
    rw [idOf?, idOf?, hs, Option.map_some, Option.map_eq_some_iff] at hnamed
    obtain ⟨t, ht, -⟩ := hnamed
    exact lt_of_session? ht
  exact ⟨q, hq, ⟨z, List.mem_append_left _ hz, hlost⟩,
    (hid r hr).trans (hnamed.trans (hid q hlt).symm)⟩

theorem Tells.other (h : Tells p m E base xs g) (ha : a ≠ .control p)
    (hstep : g.perform a = some g') : Tells p m E base (xs ++ [⟨g, .act a, g'⟩]) g' := by
  have hother : (Move.act a).isOwn p = false := eq_false_of_ne_true (mt Act.isStepOf_iff.mp ha)
  obtain ⟨es, hp, -⟩ := posted_perform h.sound.numbered hstep
  have huntouched {r : SessionRef} (hr : Untouched p r xs) :
      Untouched p r (xs ++ [⟨g, .act a, g'⟩]) :=
    hr.snoc fun hown => by cases hother.symm.trans hown
  constructor
  case sound => exact h.sound.act hstep
  case others => exact fun r hlt hr => huntouched (h.others r hlt hr)
  case later =>
    intro r hr
    obtain ⟨huntold, hleft⟩ := h.later r hr
    have hages : g.Ages g' := hp.ages
    refine ⟨?_, hleft.imp huntouched fun hheir => hheir.keep h.sound fun _ => hages.idOf?⟩
    rw [queuedIn_snoc, huntold, Moment.queued_of_other hother]
    rfl
  case call =>
    intro n hn'
    have hn := (h.sound.process?_other ha hstep (process?_of_notice? hn')).1
    exact (h.call n (notice?_eq hn)).other h.sound ha hstep

theorem Tells.own (h : Tells p m E base xs g) (hown : v.isOwn p = true)
    (hstep : step p g v = some g') : Tells p m E base (xs ++ [⟨g, v, g'⟩]) g' := by
  obtain ⟨n, hn⟩ := notice_of_own h.sound.process hown hstep
  have hcall := h.call n hn
  have hs' : Sound p E base g' := by
    refine h.sound.step (fun n₁ hn₁ r hr => ?_) hstep
    exact (h.call n₁ hn₁).fits.known r (List.mem_append_right _ hr)
  obtain ⟨n', hn', hthis⟩ := own_step hcall.fits (hcall.stage.imp_right And.left)
    h.sound.registered (fun r hr => h.sound.known (h.sound.opened hr)) hn hown hstep
  have hapart {r : SessionRef} (hr : r ∉ E) := hthis.apart (v := v) hcall.fits hr
  constructor
  case sound => exact hs'
  case others =>
    intro r hlt hr
    refine (h.others r hlt hr).snoc fun _ => (hapart hr).2.resolve_right ?_
    rintro ⟨q, hq, hsucceeds⟩
    exact absurd hlt (Nat.not_lt.mpr (h.sound.later (hcall.failed hq).1 hsucceeds))
  case later =>
    intro r hle
    have hr : r ∉ E := fun hr => absurd (h.sound.opened hr) (Nat.not_lt.mpr hle)
    obtain ⟨huntold, hleft⟩ := h.later r hle
    obtain ⟨hbox, haway⟩ := hapart hr
    refine ⟨by rw [queuedIn_snoc, huntold, Moment.queued_of_outbox hbox]; rfl, ?_⟩
    rcases hleft with hleft | hheir
    · refine haway.imp (fun h => hleft.snoc fun _ => h) ?_
      rintro ⟨q, hq, hsucceeds⟩
      obtain ⟨hqE, z, hz, hlost⟩ := hcall.failed hq
      have hnamed : g'.idOf? r = g'.idOf? q := by
        rw [hthis.idOf? (h.sound.registered.opened r hsucceeds.live), hsucceeds.named,
          hthis.idOf? (h.sound.known (h.sound.opened hqE))]
      exact ⟨q, hqE, ⟨z, List.mem_append_left _ hz, hlost⟩, hnamed⟩
    · exact .inr (hheir.keep h.sound fun _ => hthis.idOf?)
  case call =>
    intro n₁ hn₁
    cases hn'.symm.trans hn₁
    exact hcall.own hn hn' hown h.sound hthis

theorem Tells.way (h : Tells p m E base [] g) (hw : Way (step p) g xs g') :
    Tells p m E base xs g' := by
  induction hw with
  | nil => exact h
  | @snoc xs g v g' _ hstep ih =>
      cases hown : v.isOwn p with
      | true => exact ih.own hown hstep
      | false =>
          cases v with
          | act a =>
              refine ih.other ?_ hstep
              rintro rfl
              exact absurd hown (ne_true_of_eq_false · (Act.isStepOf_iff.mpr rfl))
          | tell r | part r => cases hown

theorem way_of_run {ms : List AgentGateway.Moment} (h : Run g ms g') :
    Way (step p) g (ms.map Moment.ofRun) g' := by
  induction h with
  | nil => exact .nil
  | snoc _ hstep ih =>
      rw [List.map_append]
      exact ih.snoc hstep

theorem control?_start (hp : g.process? p = some (.notice { message := m }))
    (h : g.control? p = some g') : g' = g.setProcess p (.notice
      { message := m, stage := .sending (g.eligible.map fun r => (r, .fresh m)) }) := by
  obtain ⟨z, hz, h⟩ := Option.bind_eq_some_iff.mp h
  cases hp.symm.trans hz
  exact (Option.some.inj h).symm

theorem Tells.start (hg : g.Registered) (hnum : g.Numbered)
    (hp : g.process? p = some (.notice { message := m })) (h : g.control? p = some g') :
    Tells p m g.eligible.toFinset g [] g' := by
  obtain rfl := control?_start hp h
  have hbegun : p < g.nextProcess := by
    by_contra hge
    cases (hnum p (Nat.le_of_not_lt hge)).symm.trans hp
  have huntouched (r : SessionRef) : Untouched p r [] :=
    ⟨List.flatMap_nil, List.forall_mem_nil _⟩
  have hsound : Sound p g.eligible.toFinset g g := by
    refine ⟨hg, hnum, hbegun, fun z hz => ?_, hg, fun r hr => ?_, ages_refl, fun _ hr _ => hr⟩
    · cases hz.symm.trans hp
      exact ⟨_, rfl⟩
    · exact List.mem_of_mem_filter (List.mem_toFinset.mp hr)
  constructor
  case sound => exact hsound.act (a := .control p) h
  case others => exact fun r _ _ => huntouched r
  case later => exact fun r _ => ⟨List.flatMap_nil, .inl (huntouched r)⟩
  case call =>
    intro n hn
    cases (notice?_setProcess (notice?_eq hp)).symm.trans hn
    have hawaited (n : Notice) (hn : n.stage = .sending (g.eligible.map fun r => (r, .fresh m))) :
        n.awaited = g.eligible := by
      rw [Notice.awaited, Notice.pending, hn]
      exact List.map_map.trans (List.map_id _)
    refine ⟨⟨fun r hr => ?_, ?_, fun e he => ?_⟩, fun r hr => ?_, ?_, .inl rfl⟩
    · rw [hawaited _ rfl, List.append_nil] at hr
      exact List.mem_toFinset.mpr hr
    · rw [hawaited _ rfl, List.append_nil]
      exact hg.nodup.filter _
    · obtain ⟨r, -, rfl⟩ := List.mem_map.mp he
      rfl
    · refine .awaited ?_ ⟨List.flatMap_nil, List.forall_mem_nil _, List.forall_mem_nil _⟩
      rw [hawaited _ rfl]
      exact List.mem_toFinset.mp hr
    · exact (Finset.sum_eq_zero fun _ _ => rfl).symm

theorem of_deliveriesOf? {count : Nat} (h : g.deliveriesOf? p = some count) :
    ∃ n, g.notice? p = some n ∧ n.stage = .done ∧ n.delivered = count := by
  unfold deliveriesOf? at h
  split at h
  · rename_i n hn
    obtain ⟨hdone, h⟩ := Option.ite_none_right_eq_some.mp h
    exact ⟨n, notice?_eq hn, hdone, Option.some.inj h⟩
  · cases h

/-- What a call has come to when it returns: each session that was connected when it took note of
them has been told its message, once, or has been found lost, and is closed and out of the registry.
It has done nothing to any other session that was there, and has told those nothing that were opened
later. These it has left alone as well, unless they have got the very id of a lost one, whose place
in the registry they take. What it returns is how many copies of its message it has queued. -/
structure Reached (p : ProcessId) (m : Message) (base : Gateway) (xs : List Moment) (g : Gateway)
    (count : Nat) : Prop where
  connected : ∀ r ∈ base.eligible, Served p [m] r xs ∨ Lost p r xs g
  others : ∀ r, r < base.sessions.length → r ∉ base.eligible → Untouched p r xs
  later : ∀ r, base.sessions.length ≤ r → queuedIn p r xs = [] ∧
    (Untouched p r xs ∨ ∃ q ∈ base.eligible, Lost p q xs g ∧ g.idOf? r = g.idOf? q)
  counted : count = ∑ r ∈ Finset.range g.sessions.length, (queuedIn p r xs).length

theorem Tells.reached {count : Nat} (h : Tells p m base.eligible.toFinset base xs g)
    (hreturns : g.deliveriesOf? p = some count) : Reached p m base xs g count := by
  obtain ⟨n, hn, hdone, rfl⟩ := of_deliveriesOf? hreturns
  have hcall := h.call n hn
  have hnone : n.awaited = [] := by rw [Notice.awaited, Notice.pending, hdone]; rfl
  have hclosed : ∀ r ∈ n.failed, g.Gone r := by
    rcases hcall.stage with hstage | ⟨-, hall⟩
    · cases hdone.symm.trans hstage
    · exact hall
  have hconnected (r : SessionRef) (hr : r ∈ base.eligible) :
      Served p [m] r xs ∨ Lost p r xs g := by
    cases hcall.standing r (List.mem_toFinset.mpr hr) with
    | awaited hawaited => simp [hnone] at hawaited
    | lost _ huntold hlost hstanding =>
        exact .inr ⟨huntold, hlost, hstanding.elim (hclosed r) id⟩
    | told _ _ hserved => exact .inl hserved
  constructor
  case connected => exact hconnected
  case others => exact fun r hlt hr => h.others r hlt (mt List.mem_toFinset.mp hr)
  case later =>
    intro r hr
    refine (h.later r hr).imp_right (Or.imp_right ?_)
    rintro ⟨q, hq, ⟨y, hy, hlost⟩, hnamed⟩
    have hq := List.mem_toFinset.mp hq
    exact ⟨q, hq, (hconnected q hq).resolve_left fun hs => hs.unfailed y hy hlost, hnamed⟩
  case counted =>
    rw [hcall.delivered]
    refine Finset.sum_subset (fun r hr => ?_) fun r _ hr => ?_
    · exact Finset.mem_range.mpr (h.sound.known (h.sound.opened hr))
    · by_cases hlt : r < base.sessions.length
      · rw [(h.others r hlt hr).untold, List.length_nil]
      · rw [(h.later r (Nat.le_of_not_lt hlt)).1, List.length_nil]

/-- This is what every run comes to, and also every way on which the steps of the process are taken
bit by bit. -/
theorem reaches_connected {g₀ g₁ g₂ : Gateway} {past : List AgentGateway.Moment} (h₀ : g₀.IsNew)
    (hpast : Run g₀ past g₁) (hp : g₁.process? p = some (.notice { message := m }))
    (hsnap : g₁.control? p = some g₂) :
    (∀ ms g count, Run g₂ ms g → g.deliveriesOf? p = some count →
      Reached p m g₁ (ms.map Moment.ofRun) g count) ∧
    ∀ xs g count, Way (step p) g₂ xs g → g.deliveriesOf? p = some count →
      Reached p m g₁ xs g count := by
  have hstart := Tells.start (hpast.registered h₀) (hpast.numbered h₀.numbered) hp hsnap
  exact ⟨fun ms g count hrun hreturns => (hstart.way (way_of_run hrun)).reached hreturns,
    fun xs g count hway hreturns => (hstart.way hway).reached hreturns⟩

/-- Two sessions that are connected, one with a full queue, and one that is connecting, when a
notification to them is sent. -/
def notifying : List Act :=
  [.openSession ["a"] "owner" .server {}, .openSession ["b"] "owner" .server {},
    .openSession ["c"] "owner" .server {}, .transition 0 .connected, .transition 1 .connected,
    .offer 1 {}, .notify "notifications/message" none]

/-- The receiver of a session goes away while the call waits for room in its queue, after another
session has been opened. -/
def losing : List Act :=
  [.control 0, .openSession ["d"] "owner" .server {}, .transition 3 .connected, .dropReceiver 1,
    .control 0, .control 0]

/-- The same bit by bit, where the host closes the lost session before the call does, and one that
is opened then is given its id. -/
def inheriting : List Move :=
  [.tell 1, .tell 0, .act (.dropReceiver 1), .tell 1, .act (.closeSession "b" .explicit),
    .act (.openSession ["b"] "owner" .server {}), .part 1, .act (.control 0)]

theorem reaches_connected_losing : ∃ (past ms : List AgentGateway.Moment) (g₁ g₂ g g' : Gateway)
    (xs : List Moment) (m : Message), Run (Gateway.new { outboundBuffer := 1 } []) past g₁ ∧
    g₁.process? 0 = some (.notice { message := m }) ∧ g₁.control? 0 = some g₂ ∧
    (Run g₂ ms g ∧ g.deliveriesOf? 0 = some 1 ∧ Served 0 [m] 0 (ms.map Moment.ofRun) ∧
      Lost 0 1 (ms.map Moment.ofRun) g ∧ Untouched 0 2 (ms.map Moment.ofRun) ∧
      Untouched 0 3 (ms.map Moment.ofRun)) ∧
    Way (step 0) g₂ xs g' ∧ g'.deliveriesOf? 0 = some 1 ∧ Served 0 [m] 0 xs ∧ Lost 0 1 xs g' ∧
    Untouched 0 2 xs ∧ g'.Gone 3 := by
  let m : Message := .notification "notifications/message" none
  have h₀ : (Gateway.new { outboundBuffer := 1 } []).IsNew := ⟨{ outboundBuffer := 1 }, [], 0, rfl⟩
  have hall : (((Gateway.new { outboundBuffer := 1 } []).replay notifying).any fun z =>
      z.2.notice? 0 = some { message := m } && z.2.eligible = [0, 1] &&
      z.2.sessions.length = 3 && (z.2.control? 0).any fun g₂ =>
        ((g₂.replay losing).any fun w => w.2.deliveriesOf? 0 = some 1 && 0 ∈ w.2.live &&
          queuedIn 0 1 (w.1.map Moment.ofRun) = [] &&
          ∀ q ∈ [0, 1], w.2.idOf? 3 ≠ w.2.idOf? q) &&
        (Way.replay (step 0) inheriting g₂).any fun w => w.2.deliveriesOf? 0 = some 1 &&
          0 ∈ w.2.live && queuedIn 0 1 w.1 = [] && 3 ∉ w.2.live &&
          (w.2.session? 3).any (·.status = .closed)) = true := by
    decide +kernel
  obtain ⟨⟨past, g₁⟩, hpast, hall⟩ := (Option.any_eq_true ..).mp hall
  simp only [Bool.and_eq_true, decide_eq_true_eq] at hall
  obtain ⟨⟨⟨hp, heligible⟩, hlength⟩, hall⟩ := hall
  obtain ⟨g₂, hsnap, hall⟩ := (Option.any_eq_true ..).mp hall
  rw [Bool.and_eq_true] at hall
  obtain ⟨hlosing, hinheriting⟩ := hall
  obtain ⟨⟨ms, g⟩, hms, hlosing⟩ := (Option.any_eq_true ..).mp hlosing
  obtain ⟨⟨xs, g'⟩, hxs, hinheriting⟩ := (Option.any_eq_true ..).mp hinheriting
  simp only [Bool.and_eq_true, decide_eq_true_eq] at hlosing hinheriting
  obtain ⟨⟨⟨hreturns, hlive⟩, huntold⟩, hapart⟩ := hlosing
  obtain ⟨⟨⟨⟨hreturns', hlive'⟩, huntold'⟩, habsent⟩, hclosed⟩ := hinheriting
  have hrun := Run.of_replay hpast
  obtain ⟨hruns, hways⟩ := reaches_connected h₀ hrun (process?_of_notice? hp) hsnap
  have hreached := hruns ms g 1 (Run.of_replay hms) hreturns
  have hreached' := hways xs g' 1 (Way.of_replay hxs) hreturns'
  have hserved {ys : List Moment} {g : Gateway} (h : Reached 0 m g₁ ys g 1) (hl : 0 ∈ g.live) :
      Served 0 [m] 0 ys :=
    (h.connected 0 (heligible ▸ by decide)).resolve_right fun hlost => hlost.gone.absent hl
  have hlost {ys : List Moment} {g : Gateway} (h : Reached 0 m g₁ ys g 1)
      (hu : queuedIn 0 1 ys = []) : Lost 0 1 ys g := by
    refine (h.connected 1 (heligible ▸ by decide)).resolve_left fun hs => ?_
    cases hu.symm.trans hs.queued
  have hothers {ys : List Moment} {g : Gateway} (h : Reached 0 m g₁ ys g 1) :
      Untouched 0 2 ys := h.others 2 (hlength ▸ by decide) (heligible ▸ by decide)
  refine ⟨past, ms, g₁, g₂, g, g', xs, m, hrun, process?_of_notice? hp, hsnap,
    ⟨Run.of_replay hms, hreturns, hserved hreached hlive, hlost hreached huntold,
      hothers hreached, (hreached.later 3 (Nat.le_of_eq hlength)).2.resolve_right ?_⟩,
    Way.of_replay hxs, hreturns', hserved hreached' hlive', hlost hreached' huntold',
    hothers hreached', ?_, habsent⟩
  · rintro ⟨q, hq, -, hnamed⟩
    exact hapart q (heligible ▸ hq) hnamed
  · obtain ⟨s, hs, hclosed⟩ := (Option.any_eq_true ..).mp hclosed
    exact ⟨s, hs, of_decide_eq_true hclosed⟩

end AgentGateway.Broadcast
