import AgentGateway.Proofs.Turnover
/-!
What is counted of sessions adds up, however the strokes of opening and closing are interleaved.
Each session that was ever opened is in the registry, or is still to be counted as closed, or has
been counted once.
-/

namespace AgentGateway

theorem CloseReason.label_inj {reason reason' : CloseReason} (h : reason.label = reason'.label) :
    reason = reason' := by
  cases reason <;> cases reason' <;> first | rfl | exact absurd h (by decide)

theorem Tally.count_record (label label' : String) (t : Tally) :
    (t.record label).count label' = t.count label' + if label' = label then 1 else 0 := by
  induction t with
  | nil => by_cases h : label' = label <;> simp [record, count, lookup_cons_key, h]
  | cons e t ih =>
      obtain ⟨l, n⟩ := e
      unfold count at ih ⊢
      rw [record]
      split
      · rename_i hl
        subst hl
        by_cases h : label' = l <;> simp [lookup_cons_key, h]
      · rename_i hl
        by_cases h : label' = l
        · simp [h, hl]
        · simpa [lookup_cons_key, h] using ih

def Tally.closings (t : Tally) : Nat :=
  CloseReason.all.foldr (fun reason n => t.count reason.label + n) 0

def Stroke.counts : Stroke → Bool
  | .countOpened | .raise | .finish _ | .countClosed .. | .lower => true
  | _ => false

/-- That the registry and what is counted agree, save for the strokes that are still to be played;
the log says which sessions have been counted as closed. -/
structure Balanced (ro : Roster) (due : List Stroke) (log : List (SessionRef × CloseReason)) :
    Prop where
  sorted : (ro.live ++ (due.filterMap Stroke.mark? ++ log).map Prod.fst).Perm
    (List.range ro.closed.length)
  once : ∀ r, due.count (.finish r) ≤ 1
  delisted : ∀ r, 0 < due.count (.finish r) → r < ro.closed.length ∧ r ∉ ro.live
  closed : ∀ r, r < ro.closed.length →
    (ro.closed[r]? = some true ↔ r ∉ ro.live ∧ due.count (.finish r) = 0)
  created : ro.census.created + due.count .countOpened = ro.closed.length
  active : ro.census.active + due.count .raise = ro.live.length + due.count .lower
  counted : ∀ reason : CloseReason,
    ro.census.closed.count reason.label = log.countP fun m => m.2 = reason

namespace Balanced

variable {ro : Roster} {due due' o : List Stroke} {log log' : List (SessionRef × CloseReason)}
  {r : SessionRef} {reason : CloseReason} {st : Stroke}

theorem recount {census : Census} (h : Balanced ro due log)
    (hmarks : (due'.filterMap Stroke.mark? ++ log').Perm (due.filterMap Stroke.mark? ++ log))
    (hfinish : ∀ r, due'.count (.finish r) = due.count (.finish r))
    (hcreated : census.created + due'.count .countOpened = ro.closed.length)
    (hactive : census.active + due'.count .raise = ro.live.length + due'.count .lower)
    (hcounted : ∀ reason : CloseReason,
      census.closed.count reason.label = log'.countP fun m => m.2 = reason) :
    Balanced { ro with census } due' log' where
  sorted := ((hmarks.map Prod.fst).append_left ro.live).trans h.sorted
  once r := hfinish r ▸ h.once r
  delisted r := hfinish r ▸ h.delisted r
  closed r := hfinish r ▸ h.closed r
  created := hcreated
  active := hactive
  counted := hcounted

theorem congr (h : Balanced ro due log)
    (hmarks : (due'.filterMap Stroke.mark?).Perm (due.filterMap Stroke.mark?)) (hlog : log'.Perm log)
    (hcount : ∀ st : Stroke, st.counts = true → due'.count st = due.count st) :
    Balanced ro due' log' :=
  h.recount (hmarks.append hlog) (fun r => hcount (.finish r) rfl)
    (hcount .countOpened rfl ▸ h.created)
    (by rw [hcount .raise rfl, hcount .lower rfl, h.active])
    fun reason => (h.counted reason).trans (hlog.countP_eq _).symm

theorem perm (h : Balanced ro due log) (hdue : due'.Perm due) (hlog : log'.Perm log) :
    Balanced ro due' log' :=
  h.congr (hdue.filterMap _) hlog fun st _ => hdue.count_eq st

theorem mark?_of_counts (hst : st.counts = false) : st.mark? = none := by
  cases st <;> first | rfl | cases hst

theorem count_cons_of_counts {st' : Stroke} (hst : st.counts = false) (hst' : st'.counts = true) :
    (st :: o).count st' = o.count st' := by
  refine List.count_cons_of_ne fun heq => ?_
  rw [heq, hst'] at hst
  cases hst

theorem skip (h : Balanced ro (st :: o) log) (hst : st.counts = false) : Balanced ro o log :=
  h.congr (by rw [List.filterMap_cons_none (mark?_of_counts hst)]) (.refl log)
    fun _ hst' => (count_cons_of_counts hst hst').symm

theorem unskip (h : Balanced ro o log) (hst : st.counts = false) : Balanced ro (st :: o) log :=
  h.congr (by rw [List.filterMap_cons_none (mark?_of_counts hst)]) (.refl log)
    fun _ hst' => count_cons_of_counts hst hst'

theorem begin (h : Balanced ro due log) (hnew : ∀ st ∈ o, st.counts = false) :
    Balanced ro (due ++ o) log := by
  have hmarks : o.filterMap Stroke.mark? = [] :=
    List.filterMap_eq_nil_iff.mpr fun st hst => mark?_of_counts (hnew st hst)
  refine h.congr (by rw [List.filterMap_append, hmarks, List.append_nil]) (.refl log)
    fun st hst => ?_
  have hnone : o.count st = 0 := List.count_eq_zero.mpr fun hmem => by
    rw [hnew st hmem] at hst
    cases hst
  rw [List.count_append, hnone, Nat.add_zero]

theorem live_nodup (h : Balanced ro due log) : ro.live.Nodup :=
  (List.nodup_append.mp (h.sorted.nodup_iff.mpr List.nodup_range)).1

theorem lt_of_live (h : Balanced ro due log) (hr : r ∈ ro.live) : r < ro.closed.length :=
  List.mem_range.mp (h.sorted.subset (List.mem_append_left _ hr))

theorem mem_marks (h : Balanced ro due log) (hr : r < ro.closed.length) :
    r ∈ (due.filterMap Stroke.mark? ++ log).map Prod.fst ↔ r ∉ ro.live := by
  have hdisjoint := (List.nodup_append.mp (h.sorted.nodup_iff.mpr List.nodup_range)).2.2
  have hmem := h.sorted.mem_iff.mpr (List.mem_range.mpr hr)
  exact ⟨fun hmark hlive => hdisjoint r hlive r hmark rfl, (List.mem_append.mp hmem).resolve_left⟩

theorem length_marks (h : Balanced ro due log) :
    ro.live.length + (due.filterMap Stroke.mark?).length + log.length = ro.closed.length := by
  have hlength := h.sorted.length_eq
  simp only [List.length_append, List.length_map, List.length_range] at hlength
  omega

theorem closings (h : Balanced ro due log) : ro.census.closed.closings = log.length := by
  have hsum (log : List (SessionRef × CloseReason)) : (CloseReason.all.foldr
      (fun reason n => (log.countP fun m => m.2 = reason) + n) 0) = log.length := by
    induction log with
    | nil => rfl
    | cons m log ih =>
        obtain ⟨r, reason⟩ := m
        simp only [CloseReason.all, List.foldr_cons, List.foldr_nil, List.countP_cons,
          List.length_cons] at ih ⊢
        cases reason <;> simp <;> omega
  rw [← hsum log]
  simp only [Tally.closings, h.counted]

theorem enter (h : Balanced ro o log) :
    Balanced ⟨ro.live ++ [ro.closed.length], ro.closed ++ [false], ro.census⟩
      (.countOpened :: .raise :: o) log := by
  have hcount (r : SessionRef) :
      (.countOpened :: .raise :: o).count (.finish r) = o.count (.finish r) := by simp
  constructor
  case sorted =>
    rw [List.length_append, List.length_singleton, List.range_succ]
    refine List.Perm.trans ?_ (h.sorted.append_right [ro.closed.length])
    rw [List.append_assoc, List.append_assoc]
    exact List.perm_append_comm.append_left ro.live
  case once => exact fun r => hcount r ▸ h.once r
  case delisted =>
    intro r hr
    rw [hcount] at hr
    obtain ⟨hlt, hlive⟩ := h.delisted r hr
    refine ⟨by simpa using Nat.lt_succ_of_lt hlt, ?_⟩
    simpa [hlive] using Nat.ne_of_lt hlt
  case closed =>
    intro r hr
    rw [hcount]
    rw [List.length_append, List.length_singleton] at hr
    rcases Nat.lt_or_eq_of_le (Nat.le_of_lt_succ hr) with hlt | rfl
    · rw [List.getElem?_append_left hlt, h.closed r hlt]
      simp [Nat.ne_of_lt hlt]
    · simp
  case created =>
    have hcreated := h.created
    simp
    omega
  case active =>
    have hactive := h.active
    simp
    omega
  case counted => exact h.counted

theorem depart (h : Balanced ro o log) (hr : r ∈ ro.live) :
    Balanced { ro with live := ro.live.filter (· ≠ r) } (Stroke.closing r reason ++ o) log := by
  have hperm : ro.live.Perm (r :: ro.live.filter (· ≠ r)) := by
    have hfilter : ro.live.filter (· != r) = ro.live.filter (· ≠ r) :=
      List.filter_congr fun q _ => by by_cases hq : q = r <;> simp [hq]
    rw [← hfilter, ← h.live_nodup.erase_eq_filter]
    exact List.perm_cons_erase hr
  have hlength : ro.live.length = (ro.live.filter (· ≠ r)).length + 1 := hperm.length_eq
  have hnone : o.count (.finish r) = 0 := by
    by_contra hpos
    exact (h.delisted r (Nat.pos_of_ne_zero hpos)).2 hr
  have hself : (Stroke.closing r reason ++ o).count (.finish r) = 1 := by
    simp [Stroke.closing, hnone]
  have hother (q : SessionRef) (hq : q ≠ r) :
      (Stroke.closing r reason ++ o).count (.finish q) = o.count (.finish q) := by
    simp [Stroke.closing, Ne.symm hq]
  constructor
  case sorted =>
    refine List.Perm.trans ?_ h.sorted
    refine List.Perm.trans ?_ (hperm.symm.append_right _)
    exact List.perm_middle
  case once =>
    intro q
    by_cases hq : q = r
    · rw [hq]
      exact Nat.le_of_eq hself
    · exact hother q hq ▸ h.once q
  case delisted =>
    intro q hpos
    by_cases hq : q = r
    · subst hq
      exact ⟨h.lt_of_live hr, by simp⟩
    · rw [hother q hq] at hpos
      obtain ⟨hlt, hlive⟩ := h.delisted q hpos
      exact ⟨hlt, fun hq' => hlive (List.mem_filter.mp hq').1⟩
  case closed =>
    intro q hlt
    rw [h.closed q hlt]
    by_cases hq : q = r
    · subst hq
      simp [hr, hself]
    · rw [hother q hq]
      simp [hq]
  case created =>
    have hcreated := h.created
    simpa [Stroke.closing] using hcreated
  case active =>
    have hactive := h.active
    have hraise : (Stroke.closing r reason ++ o).count .raise = o.count .raise := by
      simp [Stroke.closing]
    have hlower : (Stroke.closing r reason ++ o).count .lower = o.count .lower + 1 := by
      simp [Stroke.closing]
    rw [hraise, hlower]
    dsimp only
    omega
  case counted => exact h.counted

theorem finish (h : Balanced ro (.finish r :: o) log) :
    Balanced { ro with closed := ro.closed.set r true } o log := by
  have hself : (.finish r :: o).count (.finish r) = o.count (.finish r) + 1 := List.count_cons_self
  have hother (q : SessionRef) (hq : q ≠ r) :
      (.finish r :: o).count (.finish q) = o.count (.finish q) :=
    List.count_cons_of_ne fun heq => hq (Stroke.finish.inj heq).symm
  have hnone : o.count (.finish r) = 0 := by
    have honce := h.once r
    omega
  obtain ⟨hlt, hlive⟩ := h.delisted r (by omega)
  constructor
  case sorted =>
    rw [List.length_set]
    exact h.sorted
  case once =>
    intro q
    by_cases hq : q = r
    · rw [hq, hnone]
      exact Nat.zero_le 1
    · exact hother q hq ▸ h.once q
  case delisted =>
    intro q hpos
    have hq : q ≠ r := by
      rintro rfl
      omega
    simpa using h.delisted q (hother q hq ▸ hpos)
  case closed =>
    intro q hq'
    by_cases hq : q = r
    · subst hq
      simp [hlt, hlive, hnone]
    · rw [List.getElem?_set_ne (Ne.symm hq), h.closed q (by simpa using hq'), hother q hq]
  case created => simpa using h.created
  case active => simpa using h.active
  case counted => exact h.counted

theorem countOpened (h : Balanced ro (.countOpened :: o) log) :
    Balanced { ro with census.created := ro.census.created + 1 } o log := by
  have hcreated := h.created
  have hactive := h.active
  refine h.recount (.refl _) (fun r => by simp) ?_ ?_ h.counted
  · simp at hcreated ⊢
    omega
  · simpa using hactive

theorem raise (h : Balanced ro (.raise :: o) log) :
    Balanced { ro with census.active := ro.census.active + 1 } o log := by
  have hcreated := h.created
  have hactive := h.active
  refine h.recount (.refl _) (fun r => by simp) ?_ ?_ h.counted
  · simpa using hcreated
  · simp at hactive ⊢
    omega

theorem lower (h : Balanced ro (.lower :: o) log) :
    Balanced { ro with census.active := ro.census.active - 1 } o log := by
  have hcreated := h.created
  have hactive := h.active
  refine h.recount (.refl _) (fun r => by simp) ?_ ?_ h.counted
  · simpa using hcreated
  · simp at hactive ⊢
    omega

theorem countClosed (h : Balanced ro (.countClosed r reason :: o) log) :
    Balanced { ro with census.closed := ro.census.closed.record reason.label } o
      (log ++ [(r, reason)]) := by
  refine h.recount ?_ (fun r => by simp) ?_ ?_ fun reason' => ?_
  · rw [← List.append_assoc]
    exact List.perm_append_comm
  · simpa using h.created
  · simpa using h.active
  · rw [Tally.count_record, h.counted, List.countP_append]
    have hlabel : reason'.label = reason.label ↔ reason = reason' :=
      ⟨fun heq => (CloseReason.label_inj heq).symm, fun heq => heq ▸ rfl⟩
    by_cases heq : reason = reason' <;> simp [hlabel, heq]

variable {g g' : Gateway} {more strokes : List Stroke} {a : Act}

theorem delist (h : Balanced g.roster o log) (hr : r ∈ g.live) :
    Balanced (g.delist r).roster (Stroke.closing r reason ++ o) log := h.depart hr

theorem delistIdle {timeout : Nanos} {ids : List String} (h : Balanced g.roster o log) :
    Balanced (g.delistIdle timeout ids).2.roster
      ((g.delistIdle timeout ids).1.flatMap (Stroke.closing · .idle) ++ o) log := by
  induction ids generalizing g o with
  | nil => exact h
  | cons id ids ih =>
      rw [Gateway.delistIdle]
      split
      · exact ih h
      · rename_i r s hf
        split
        · have hr : r ∈ g.live := (Gateway.find?_spec hf).1
          have hdelist : Balanced (g.delist r).roster (Stroke.closing r .idle ++ o) log :=
            h.delist hr
          refine (ih hdelist).perm ?_ (.refl log)
          rw [List.flatMap_cons, List.append_assoc]
          exact List.perm_append_comm_assoc ..
        · exact ih h

theorem of_finish (h : Balanced g.roster (.finish r :: o) log) :
    Balanced (g.finish r).2.roster ((g.finish r).1 ++ o) log := by
  obtain ⟨hlt, -⟩ := h.delisted r (by simp)
  obtain ⟨s, hs⟩ : ∃ s, g.session? r = some s :=
    ⟨_, List.getElem?_eq_getElem (by simpa [Gateway.roster] using hlt)⟩
  have hopen : s.status ≠ .closed := by
    intro hc
    have hclosed : g.roster.closed[r]? = some true := by
      simp [Gateway.getElem?_roster, hs, Session.isClosed, hc]
    simpa using ((h.closed r hlt).mp hclosed).2
  rw [Gateway.finish, hs]
  simp only [hopen, if_false]
  rw [Gateway.roster_setSession_eq]
  exact ((h.finish.unskip rfl).unskip rfl).unskip rfl

theorem play (h : Balanced g.roster (st :: o) log) (hplay : g.play st = some (more, g')) :
    Balanced g'.roster (more ++ o) (log ++ st.mark?.toList) := by
  have hlog : log = log ++ [] := (List.append_nil log).symm
  cases st with
  | enter draws owner kind params =>
      obtain ⟨r, g₁, hopen, rfl, rfl⟩ := Gateway.play_enter hplay
      have hroster : { g₁ with metrics := g.metrics }.roster =
          ⟨g.live ++ [g.roster.closed.length], g.roster.closed ++ [false], g.metrics.census⟩ := by
        have hopened := congrArg (fun ro : Roster => { ro with census := g.metrics.census })
          (Gateway.roster_openSession hopen)
        refine hopened.trans ?_
        simp [Gateway.roster]
      rw [hroster]
      exact hlog ▸ (h.skip rfl).enter
  | remove id reason =>
      unfold Gateway.play at hplay
      dsimp only at hplay
      split at hplay <;> cases hplay
      · exact hlog ▸ h.skip rfl
      · rename_i hf
        exact hlog ▸ (h.skip rfl).delist (Gateway.find?_spec hf).1
  | evict timeout ids =>
      cases hplay
      exact hlog ▸ (h.skip rfl).delistIdle
  | countOpened =>
      cases hplay
      exact hlog ▸ h.countOpened
  | raise =>
      cases hplay
      exact hlog ▸ h.raise
  | finish r =>
      obtain ⟨rfl, rfl⟩ := Prod.mk.inj (Option.some.inj hplay)
      exact hlog ▸ h.of_finish
  | detach r | unthrottle r =>
      cases hplay
      rw [Gateway.roster_revise]
      · exact hlog ▸ h.skip rfl
      · exact fun _ => rfl
  | release ts =>
      cases hplay
      rw [Gateway.roster_settleEach]
      exact hlog ▸ h.skip rfl
  | countClosed r reason =>
      cases hplay
      exact h.countClosed
  | lower =>
      cases hplay
      exact hlog ▸ h.lower

theorem plays (h : Balanced g.roster (strokes ++ o) log) (hplays : Gateway.Plays strokes g log' g') :
    Balanced g'.roster o (log ++ log') := by
  induction hplays generalizing log with
  | nil => exact (List.append_nil log).symm ▸ h
  | @cons st rest more g g₁ g' log₁ log' hplay _ hlog ih =>
      have hnext : Balanced g₁.roster (more ++ (rest ++ o)) (log ++ st.mark?.toList) := h.play hplay
      rw [← List.append_assoc] at hnext
      rw [hlog, ← List.append_assoc]
      exact ih hnext

theorem retireEach {rs : List SessionRef} (h : Balanced g.roster o log) (hnodup : rs.Nodup)
    (hlive : ∀ r ∈ rs, r ∈ g.live) :
    Balanced (rs.foldl (fun g r => g.retire r reason) g).roster o
      (log ++ rs.map fun r => (r, reason)) := by
  induction rs generalizing g log with
  | nil => exact (List.append_nil log).symm ▸ h
  | cons r rs ih =>
      obtain ⟨hr, hrs⟩ := List.nodup_cons.mp hnodup
      have hretire : Balanced (g.retire r reason).roster o (log ++ [(r, reason)]) :=
        (h.delist (hlive r List.mem_cons_self)).plays Gateway.plays_closing
      have hrest := ih hretire hrs fun q hq => by
        rw [Gateway.live_retire]
        have hne : q ≠ r := fun heq => hr (heq ▸ hq)
        exact List.mem_filter.mpr ⟨hlive q (List.mem_cons_of_mem r hq), by simpa using hne⟩
      rwa [List.append_assoc] at hrest

theorem act (h : Balanced g.roster o log) (ha : a.isShut = false) (hstep : g.perform a = some g') :
    Balanced g'.roster o (log ++ g.departed a g') := by
  have hnone (hlive : ∀ r ∈ g.live, r ∈ g'.live) : log = log ++ g.departed a g' := by
    have hempty : g.live.filter (· ∉ g'.live) = [] :=
      List.filter_eq_nil_iff.mpr fun r hr => by simpa using hlive r hr
    rw [Gateway.departed, hempty, List.map_nil, List.append_nil]
  cases Gateway.enrolled_perform h.live_nodup hstep with
  | same hro =>
      have hlive : g'.live = g.live := congrArg Roster.live hro
      rw [← hnone fun r hr => hlive ▸ hr, hro]
      exact h
  | opened _ hopen =>
      obtain ⟨-, -, -, hlive, -⟩ := Gateway.session?_openSession hopen
      rw [← hnone fun r hr => hlive ▸ List.mem_append_left _ hr]
      have hplays := (h.unskip rfl).plays (Gateway.plays_openSession hopen)
      rwa [List.append_nil] at hplays
  | retired rs hnodup hsub hdesk =>
      have hlive : g'.live = g.live.filter (· ∉ rs) :=
        (congrArg Desk.live hdesk).trans (Gateway.live_retireEach rs g)
      have hgone : (g.live.filter (· ∉ g'.live)).Perm rs := by
        refine (List.perm_ext_iff_of_nodup (h.live_nodup.filter _) hnodup).mpr fun q => ?_
        simp only [hlive, List.mem_filter, decide_eq_true_eq, not_and, not_not]
        exact ⟨fun hq => hq.2 hq.1, fun hq => ⟨hsub q hq, fun _ => hq⟩⟩
      rw [Gateway.roster_of_desk hdesk]
      exact (h.retireEach hnodup hsub).perm (.refl o) ((hgone.map _).append_left log)
  | shut r heq _ => simp [heq, Act.isShut] at ha

end Balanced

end AgentGateway
