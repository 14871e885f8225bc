import AgentGateway.Proofs.Profile

namespace AgentGateway

structure Roster where
  live : List SessionRef
  closed : List Bool
  census : Census

theorem Session.Carries.isClosed {s s' : Session} (h : s.Carries s') : s'.isClosed = s.isClosed := by
  simp [Session.isClosed, h.closed]

instance Session.steady_isClosed : Session.Steady Session.isClosed where
  transition h := (carries_transition h).isClosed
  logLevel _ _ := rfl
  pending _ _ := rfl
  outbound _ _ := rfl
  nextRequestId _ _ := rfl

namespace Gateway

def roster (g : Gateway) : Roster :=
  ⟨g.live, g.sessions.map Session.isClosed, g.metrics.census⟩

variable {g g' : Gateway} {r : SessionRef} {s : Session} {a : Act}

theorem roster_of_profile (h : g'.profile Session.isClosed = g.profile Session.isClosed) :
    g'.roster = g.roster :=
  (congrArg (fun x : Profile Bool => (⟨x.live, x.marks, x.census⟩ : Roster)) h :)

theorem roster_of_desk (h : g'.desk = g.desk) : g'.roster = g.roster :=
  roster_of_profile (profile_of_desk h)

theorem length_of_roster (h : g'.roster = g.roster) : g'.sessions.length = g.sessions.length := by
  simpa [roster] using congrArg (fun x : Roster => x.closed.length) h

theorem getElem?_roster : g.roster.closed[r]? = (g.session? r).map Session.isClosed :=
  List.getElem?_map

theorem set_roster (hs : g.session? r = some s) :
    g.roster.closed.set r s.isClosed = g.roster.closed := set_profile hs

theorem roster_setSession_eq :
    (g.setSession r s).roster = { g.roster with closed := g.roster.closed.set r s.isClosed } := by
  simp [roster, setSession, List.map_set]

theorem roster_amend {f : Session → Session} (hf : ∀ s, (f s).isClosed = s.isClosed)
    (h : g.amend r f = some g') : g'.roster = g.roster := roster_of_profile (profile_amend hf h)

theorem roster_settleEach {state : WaiterState} (ts : List Ticket) :
    (ts.foldl (fun g t => (g.settleTicket t state).2) g).roster = g.roster :=
  roster_of_profile (profile_settleEach ts)

theorem roster_openSession {draws : List String} {owner : String} {kind : SessionKind}
    {params : SessionParams} (h : g.openSession draws owner kind params = some (r, g')) :
    g'.roster = ⟨g.live ++ [g.sessions.length], g.roster.closed ++ [false],
      ⟨g.metrics.created + 1, g.metrics.active + 1, g.metrics.closed⟩⟩ := by
  obtain ⟨id, -, heq⟩ := Option.map_eq_some_iff.mp h
  cases heq
  simp [roster, Session.isClosed, Session.opened, Metrics.census, Metrics.sessionCreated]

theorem roster_shut :
    (g.shut r).2.roster = { g.roster with closed := g.roster.closed.set r true } := by
  unfold shut
  cases hs : g.session? r with
  | none =>
      have hr : g.roster.closed.length ≤ r :=
        List.getElem?_eq_none_iff.mp (by rw [getElem?_roster, hs, Option.map_none])
      rw [Option.bind_none, List.set_eq_of_length_le hr]
  | some s =>
      rw [Option.bind_some]
      cases hc : s.close with
      | none =>
          have hclosed : s.isClosed = true := by
            unfold Session.close at hc
            split at hc
            · simpa [Session.isClosed]
            · cases hc
          rw [← hclosed, set_roster hs]
      | some x =>
          obtain ⟨ts, s'⟩ := x
          obtain ⟨-, -, hclosed, -⟩ := Session.close_spec hc
          refine (roster_settleEach _).trans ?_
          rw [roster_setSession_eq, Session.isClosed, hclosed]
          rfl

theorem length_shut : (g.shut r).2.sessions.length = g.sessions.length := by
  have hlength := congrArg (fun x : Roster => x.closed.length) (roster_shut (g := g) (r := r))
  simpa [roster] using hlength

variable {reason : CloseReason}

theorem filter_cons_notMem {l rs : List SessionRef} :
    l.filter (· ∉ r :: rs) = (l.filter (· ≠ r)).filter (· ∉ rs) := by
  rw [List.filter_filter]
  refine List.filter_congr fun q _ => ?_
  by_cases hq : q = r <;> simp [hq]

theorem live_retireEach (rs : List SessionRef) (g : Gateway) :
    (rs.foldl (fun g r => g.retire r reason) g).live = g.live.filter (· ∉ rs) := by
  induction rs generalizing g with
  | nil => exact (List.filter_eq_self.mpr (by simp)).symm
  | cons r rs ih => rw [List.foldl_cons, ih, live_retire, filter_cons_notMem]

theorem length_retire : (g.retire r reason).sessions.length = g.sessions.length :=
  length_shut (g := { g with live := g.live.filter (· ≠ r) })

theorem length_retireEach (rs : List SessionRef) (g : Gateway) :
    (rs.foldl (fun g r => g.retire r reason) g).sessions.length = g.sessions.length := by
  induction rs generalizing g with
  | nil => rfl
  | cons r rs ih => exact (ih _).trans length_retire

inductive Enrolled (a : Act) (g g' : Gateway) : Prop
  | same : g'.roster = g.roster → Enrolled a g g'
  | opened {r : SessionRef} {draws : List String} {owner : String} {kind : SessionKind}
      {params : SessionParams} : a = .openSession draws owner kind params →
      g.openSession draws owner kind params = some (r, g') → Enrolled a g g'
  | retired (rs : List SessionRef) : rs.Nodup → (∀ r ∈ rs, r ∈ g.live) →
      g'.desk = (rs.foldl (fun h r => h.retire r (g.cause a)) g).desk → Enrolled a g g'
  | shut (r : SessionRef) : a = .shut r → g' = (g.shut r).2 → Enrolled a g g'

theorem enrolled_perform (hl : g.live.Nodup) (h : g.perform a = some g') : Enrolled a g g' := by
  rcases profiled_perform (f := Session.isClosed) hl h with
    hsame | ⟨-, -, hfind, hvalid⟩ | ⟨-, hs, rfl⟩ | ⟨-, hs, rfl⟩ | ⟨ha, hopen⟩ |
      ⟨-, rfl⟩ | ⟨rs, hnodup, hlive, hdesk⟩ | ⟨r, ha, hg⟩
  · exact .same (roster_of_profile hsame)
  · exact .same (roster_of_profile (hvalid.trans (profile_setSession (find?_spec hfind).2.1
      (Session.carries_touch.trans Session.carries_validate).isClosed)))
  · exact .same (roster_of_profile (profile_setSession hs rfl))
  · exact .same (roster_of_profile (profile_setSession hs rfl))
  · exact .opened ha hopen
  · exact .same rfl
  · exact .retired rs hnodup hlive hdesk
  · exact .shut r ha hg

def Ages (g g' : Gateway) : Prop :=
  ∀ r s, g.session? r = some s → ∃ s', g'.session? r = some s' ∧ s.Ages s'

structure Enlisted (g : Gateway) : Prop where
  nodup : g.live.Nodup
  opened : ∀ r ∈ g.live, r < g.sessions.length
  unique : ∀ r q s t, r ∈ g.live → q ∈ g.live → g.session? r = some s → g.session? q = some t →
    s.id = t.id → r = q

structure Registered (g : Gateway) : Prop extends Enlisted g where
  listed : ∀ r s, g.session? r = some s → s.status ≠ .closed → r ∈ g.live

theorem Ages.back (h : g.Ages g') (hl : g'.sessions.length = g.sessions.length)
    (hs : g'.session? r = some s) : ∃ s₀, g.session? r = some s₀ ∧ s₀.Ages s := by
  obtain ⟨s₀, hs₀⟩ : ∃ s₀, g.session? r = some s₀ :=
    ⟨_, List.getElem?_eq_getElem (hl ▸ lt_of_session? hs)⟩
  obtain ⟨s', hs', hage⟩ := h r s₀ hs₀
  cases hs'.symm.trans hs
  exact ⟨s₀, hs₀, hage⟩

theorem Enlisted.thin (h : g.Enlisted) (hl : g'.sessions.length = g.sessions.length)
    (hnamed : ∀ r s', g'.session? r = some s' → ∃ s, g.session? r = some s ∧ s'.id = s.id)
    (hsub : g'.live.Sublist g.live) : g'.Enlisted where
  nodup := h.nodup.sublist hsub
  opened r hr := hl ▸ h.opened r (hsub.subset hr)
  unique r q s t hr hq hs ht hid := by
    obtain ⟨s₀, hs₀, hns⟩ := hnamed r s hs
    obtain ⟨t₀, ht₀, hnt⟩ := hnamed q t ht
    refine h.unique r q s₀ t₀ (hsub.subset hr) (hsub.subset hq) hs₀ ht₀ ?_
    rw [← hns, hid, hnt]

theorem Registered.thin (h : g.Registered) (ha : g.Ages g')
    (hl : g'.sessions.length = g.sessions.length) (hsub : g'.live.Sublist g.live)
    (hgone : ∀ r s, r ∈ g.live → r ∉ g'.live → g'.session? r = some s → s.status = .closed) :
    g'.Registered where
  toEnlisted := by
    refine h.toEnlisted.thin hl (fun r s' hs' => ?_) hsub
    obtain ⟨s, hs, hage⟩ := ha.back hl hs'
    exact ⟨s, hs, hage.named⟩
  listed r s hs hopen := by
    obtain ⟨s₀, hs₀, hage⟩ := ha.back hl hs
    have hr : r ∈ g.live := h.listed r s₀ hs₀ fun hc => hopen (hage.closed hc)
    by_contra hr'
    exact hopen (hgone r s hr hr' hs)

theorem ages_shut : g.Ages (g.shut r).2 := by
  have hposts : Board.Posts none (g.boardWith fun _ => none)
      ((g.shut r).2.boardWith fun _ => none) := posts_shut
  obtain ⟨es, hp, -⟩ := hposts
  exact hp.ages

theorem ages_retire : g.Ages (g.retire r reason) :=
  ages_shut (g := { g with live := g.live.filter (· ≠ r) })

theorem session?_shut {q : SessionRef} : (g.shut r).2.session? q =
    (g.session? q).map fun s => if q = r then s.close.elim s Prod.snd else s := by
  unfold shut
  cases hs : g.session? r with
  | none =>
      refine Option.map_id_apply.symm.trans (Option.map_congr fun s hsq => ?_)
      rw [if_neg, id_eq]
      rintro rfl
      cases hs.symm.trans hsq
  | some s =>
      rw [Option.bind_some]
      cases hc : s.close with
      | none =>
          refine Option.map_id_apply.symm.trans (Option.map_congr fun s' hs' => ?_)
          split
          · rename_i heq
            subst heq
            cases hs.symm.trans hs'
            rw [hc]
            rfl
          · rfl
      | some x =>
          obtain ⟨ts, s₁⟩ := x
          have hsettled : ((ts.foldl (fun g t => (g.settleTicket t .cancelled).2)
              (g.setSession r s₁)).session? q).map id = ((g.setSession r s₁).session? q).map id :=
            mark_of_profile (profile_settleEach ts)
          simp only [Option.map_id_fun, id_eq] at hsettled
          refine hsettled.trans ?_
          rw [session?_setSession hs]
          split
          · rename_i heq
            subst heq
            rw [hs, Option.map_some, hc]
            rfl
          · exact Option.map_id_apply.symm

theorem session?_retire {q : SessionRef} : (g.retire r reason).session? q =
    (g.session? q).map fun s => if q = r then s.close.elim s Prod.snd else s :=
  session?_shut (g := { g with live := g.live.filter (· ≠ r) })

theorem closed_shut (hs : (g.shut r).2.session? r = some s) : s.status = .closed := by
  rw [session?_shut] at hs
  obtain ⟨s₀, -, rfl⟩ := Option.map_eq_some_iff.mp hs
  rw [if_pos rfl]
  cases hc : s₀.close with
  | none =>
      by_contra hopen
      simp [Session.close, show s₀.status ≠ .closed from hopen] at hc
  | some x => exact (Session.close_spec hc).2.2.1

theorem Registered.retire (h : g.Registered) : (g.retire r reason).Registered := by
  have hsub : (g.retire r reason).live.Sublist g.live := by
    rw [live_retire]
    exact List.filter_sublist
  refine h.thin ages_retire length_retire hsub fun q s hq hq' hs => ?_
  obtain rfl : q = r := by
    by_contra hne
    rw [live_retire] at hq'
    exact hq' (List.mem_filter.mpr ⟨hq, by simpa using hne⟩)
  exact closed_shut (g := { g with live := g.live.filter (· ≠ q) }) hs

theorem Registered.retireEach (rs : List SessionRef) (h : g.Registered) :
    (rs.foldl (fun g r => g.retire r reason) g).Registered := by
  induction rs generalizing g with
  | nil => exact h
  | cons r rs ih => exact ih h.retire

theorem Enlisted.of_desk (h : g.Enlisted) (hd : g'.desk = g.desk) : g'.Enlisted := by
  have hl : g'.live = g.live := congrArg Desk.live hd
  exact h.thin (length_of_roster (roster_of_desk hd))
    (fun r s' hs' => ⟨s', session?_of_desk hd ▸ hs', rfl⟩) (hl ▸ .refl _)

theorem Registered.of_desk (h : g.Registered) (hd : g'.desk = g.desk) : g'.Registered := by
  have hl : g'.live = g.live := congrArg Desk.live hd
  refine ⟨h.toEnlisted.of_desk hd, fun r s => ?_⟩
  rw [session?_of_desk hd, hl]
  exact h.listed r s

theorem freshId?_eq_some {draws : List String} {id : String} :
    g.freshId? draws = some id ↔ g.settings.outboundBuffer ≤ Channel.maxCapacity ∧
      draws.find? (fun id => !g.liveIds.contains id) = some id := by
  unfold freshId?
  exact Option.ite_none_right_eq_some

theorem freshId?_notMem {draws : List String} {id : String} (h : g.freshId? draws = some id) :
    id ∉ g.liveIds := by
  simpa using List.find?_some (freshId?_eq_some.mp h).2

theorem session?_openSession {draws : List String} {owner : String} {kind : SessionKind}
    {params : SessionParams} (h : g.openSession draws owner kind params = some (r, g')) :
    ∃ s, s.id ∉ g.liveIds ∧ r = g.sessions.length ∧ g'.live = g.live ++ [r] ∧
      ∀ q, g'.session? q = if q = r then some s else g.session? q := by
  obtain ⟨id, hid, heq⟩ := Option.map_eq_some_iff.mp h
  cases heq
  refine ⟨.opened id owner kind params g.settings.outboundBuffer g.now, ?_, rfl, rfl, fun q => ?_⟩
  · exact freshId?_notMem hid
  · by_cases hq : q = g.sessions.length
    · simp [session?, hq]
    · rw [if_neg hq]
      rcases Nat.lt_or_gt_of_ne hq with hlt | hgt
      · exact List.getElem?_append_left hlt
      · rw [session?, session?, List.getElem?_eq_none, List.getElem?_eq_none]
        · exact Nat.le_of_lt hgt
        · simpa using Nat.succ_le_of_lt hgt

theorem Enlisted.openSession {draws : List String} {owner : String} {kind : SessionKind}
    {params : SessionParams} (h : g.Enlisted)
    (ho : g.openSession draws owner kind params = some (r, g')) : g'.Enlisted := by
  obtain ⟨s₁, hfresh, hlength, hlive, hsession⟩ := session?_openSession ho
  have hnew (q : SessionRef) (t : Session) (hq : q ∈ g.live) (ht : g.session? q = some t) :
      t.id ≠ s₁.id := by
    intro hid
    exact hfresh (List.mem_filterMap.mpr ⟨q, hq, by simp [ht, hid]⟩)
  constructor
  case nodup =>
    rw [hlive, List.nodup_append]
    refine ⟨h.nodup, by simp, fun q hq q' hq' heq => ?_⟩
    rw [heq, List.mem_singleton.mp hq', hlength] at hq
    exact Nat.lt_irrefl _ (h.opened _ hq)
  case opened =>
    intro q hq
    rw [hlive, List.mem_append, List.mem_singleton] at hq
    obtain ⟨t, ht⟩ : ∃ t, g'.session? q = some t := by
      rw [hsession]
      split
      · exact ⟨s₁, rfl⟩
      · rename_i hne
        exact ⟨_, List.getElem?_eq_getElem (h.opened q (hq.resolve_right hne))⟩
    exact lt_of_session? ht
  case unique =>
    intro q q' t t' hq hq' ht ht' hid
    rw [hlive, List.mem_append, List.mem_singleton] at hq hq'
    rw [hsession] at ht ht'
    split at ht <;> split at ht'
    · rename_i h₁ h₂
      exact h₁.trans h₂.symm
    · rename_i hne
      cases ht
      exact absurd hid.symm (hnew q' t' (hq'.resolve_right hne) ht')
    · rename_i hne _
      cases ht'
      exact absurd hid (hnew q t (hq.resolve_right hne) ht)
    · rename_i hne hne'
      exact h.unique q q' t t' (hq.resolve_right hne) (hq'.resolve_right hne') ht ht' hid

theorem Registered.openSession {draws : List String} {owner : String} {kind : SessionKind}
    {params : SessionParams} (h : g.Registered)
    (ho : g.openSession draws owner kind params = some (r, g')) : g'.Registered := by
  obtain ⟨s₁, -, -, hlive, hsession⟩ := session?_openSession ho
  refine ⟨h.toEnlisted.openSession ho, fun q t ht hopen => ?_⟩
  rw [hsession] at ht
  rw [hlive, List.mem_append, List.mem_singleton]
  split at ht
  · exact .inr ‹_›
  · exact .inl (h.listed q t ht hopen)

theorem Enlisted.perform (h : g.Enlisted) (hn : g.Numbered) (hstep : g.perform a = some g') :
    g'.Enlisted := by
  obtain ⟨es, hp, -⟩ := posted_perform hn hstep
  have hthin (hl : g'.sessions.length = g.sessions.length) (hsub : g'.live.Sublist g.live) :
      g'.Enlisted := by
    refine h.thin hl (fun r s' hs' => ?_) hsub
    obtain ⟨s, hs, hage⟩ := Ages.back hp.ages hl hs'
    exact ⟨s, hs, hage.named⟩
  cases enrolled_perform h.nodup hstep with
  | same hro =>
      have hlive : g'.live = g.live := congrArg Roster.live hro
      exact hthin (length_of_roster hro) (hlive ▸ .refl _)
  | opened _ hopen => exact h.openSession hopen
  | retired rs _ _ hdesk =>
      have hlive : g'.live = g.live.filter (· ∉ rs) :=
        (congrArg Desk.live hdesk).trans (live_retireEach rs g)
      refine hthin ?_ (hlive ▸ List.filter_sublist)
      rw [length_of_roster (roster_of_desk hdesk)]
      exact length_retireEach rs g
  | shut r _ heq =>
      subst heq
      have hlive : (g.shut r).2.live = g.live := live_shut
      exact hthin length_shut (hlive ▸ .refl _)

theorem Registered.perform (h : g.Registered) (hn : g.Numbered) (hstep : g.perform a = some g') :
    g'.Registered := by
  cases enrolled_perform h.nodup hstep with
  | same hr =>
      obtain ⟨es, hp, -⟩ := posted_perform hn hstep
      have hlive : g'.live = g.live := congrArg Roster.live hr
      exact h.thin hp.ages (length_of_roster hr) (hlive ▸ .refl _)
        fun r s hr' hgone => absurd (hlive ▸ hr') hgone
  | opened _ ho => exact h.openSession ho
  | retired rs _ _ hd => exact (h.retireEach rs).of_desk hd
  | shut r _ heq =>
      subst heq
      have hlive : (g.shut r).2.live = g.live := congrArg Roster.live roster_shut
      exact h.thin ages_shut length_shut (hlive ▸ .refl _)
        fun r s hr' hgone => absurd (hlive ▸ hr') hgone

end Gateway

open Gateway

variable {g₀ g : Gateway} {ms : List Moment} {r : SessionRef} {s : Session}

theorem Gateway.IsNew.enlisted (h₀ : g₀.IsNew) : g₀.Enlisted := by
  obtain ⟨settings, tools, epoch, rfl⟩ := h₀
  constructor
  case nodup => exact List.nodup_nil
  case opened =>
    intro r hr
    cases hr
  case unique =>
    intro r q s t hr
    cases hr

theorem Run.registered (h₀ : g₀.IsNew) (hr : Run g₀ ms g) : g.Registered := by
  induction hr with
  | nil =>
      refine ⟨h₀.enlisted, fun r s hs => ?_⟩
      obtain ⟨settings, tools, epoch, rfl⟩ := h₀
      cases hs
  | snoc hrun hstep ih => exact ih.perform (hrun.numbered h₀.numbered) hstep

namespace Gateway

theorem Enlisted.find? (h : g.Enlisted) (hr : r ∈ g.live) (hs : g.session? r = some s) :
    g.find? s.id = some (r, s) := by
  cases hf : g.find? s.id with
  | none =>
      have hnone := List.findSome?_eq_none_iff.mp hf r hr
      simp [hs] at hnone
  | some x =>
      obtain ⟨q, t⟩ := x
      obtain ⟨hq, ht, hid⟩ := find?_spec hf
      obtain rfl := h.unique q r t s hq hr ht hs hid
      cases ht.symm.trans hs
      rfl

theorem Registered.get (h : g.Registered) (hs : g.session? r = some s)
    (hopen : s.status ≠ .closed) : g.get s.id = .ok (r, s) := by
  rw [Gateway.get, h.find? (h.listed r s hs hopen) hs]

end Gateway

end AgentGateway
