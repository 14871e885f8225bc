import AgentGateway.Proofs.Isolation

namespace AgentGateway

def Act.elapsed : Act → Nanos
  | .tick d => d
  | _ => 0

namespace Moment

/-- Whether a session is opened or heard, or touched by the host. -/
def stirs (r : SessionRef) (x : Moment) : Bool :=
  match x.act with
  | .openSession .. => x.before.sessions.length = r
  | .touch q => q = r
  | _ => (x.heard? r).isSome

def stirredAt? (r : SessionRef) (x : Moment) : Option Nanos :=
  if x.stirs r then some x.before.now else none

end Moment

def lastStir? (r : SessionRef) (ms : List Moment) : Option Nanos :=
  (ms.filterMap (Moment.stirredAt? r)).getLast?

theorem lastStir?_snoc {r : SessionRef} {ms : List Moment} {x : Moment} :
    lastStir? r (ms ++ [x]) = if x.stirs r then some x.before.now else lastStir? r ms := by
  rw [lastStir?, filterMap_snoc, Moment.stirredAt?]
  split
  · exact List.getLast?_concat
  · rw [Option.toList_none, List.append_nil, lastStir?]

def Session.stamp (s : Session) : String × Nanos := (s.id, s.lastActivity)

instance Session.steady_lastActivity : Session.Steady Session.lastActivity where
  transition h := by
    unfold transition at h
    split at h
    · cases h
    · split at h <;> cases h
      rfl
  logLevel _ _ := rfl
  pending _ _ := rfl
  outbound _ _ := rfl
  nextRequestId _ _ := rfl

namespace Gateway

open Session (lastActivity stamp)

variable {g g' : Gateway} {r q : SessionRef} {s s' : Session} {a : Act} {reason : CloseReason}

theorem now_shut : (g.shut r).2.now = g.now := by
  unfold shut
  split
  · rfl
  · rename_i ts s _
    exact (congrArg Profile.now (profile_settleEach (f := Session.isClosed) ts) :)

theorem now_retireEach (rs : List SessionRef) (g : Gateway) :
    (rs.foldl (fun g r => g.retire r reason) g).now = g.now := by
  induction rs generalizing g with
  | nil => rfl
  | cons r rs ih => exact (ih _).trans (now_shut (g := { g with live := g.live.filter (· ≠ r) }))

theorem now_perform (hl : g.live.Nodup) (hstep : g.perform a = some g') :
    g'.now = g.now + a.elapsed := by
  cases a with
  | tick d =>
      cases hstep
      rfl
  | _ =>
      rcases profiled_perform (f := Session.isClosed) hl hstep with
        hsame | ⟨-, -, hfind, hvalid⟩ | ⟨-, hs, rfl⟩ | ⟨-, hs, rfl⟩ | ⟨-, hopen⟩ | ⟨ha, -⟩ |
          ⟨rs, -, -, hdesk⟩ | ⟨r, -, rfl⟩
      · exact congrArg Profile.now hsame
      · exact congrArg Profile.now hvalid
      · rfl
      · rfl
      · obtain ⟨id, -, heq⟩ := Option.map_eq_some_iff.mp hopen
        cases heq
        rfl
      · cases ha
      · exact (congrArg Desk.now hdesk).trans (now_retireEach rs g)
      · exact now_shut

theorem stamp_shut : ((g.shut q).2.session? r).map stamp = (g.session? r).map stamp := by
  rw [session?_shut, Option.map_map]
  refine Option.map_congr fun s _ => ?_
  rw [Function.comp_apply]
  split
  · unfold Session.close
    split <;> rfl
  · rfl

theorem activity_of_stamp (h : (g'.session? r).map stamp = (g.session? r).map stamp) :
    (g'.session? r).map lastActivity = (g.session? r).map lastActivity := by
  have hsnd := congrArg (Option.map Prod.snd) h
  rwa [Option.map_map, Option.map_map] at hsnd

theorem activity_shut :
    ((g.shut q).2.session? r).map lastActivity = (g.session? r).map lastActivity :=
  activity_of_stamp stamp_shut

theorem stamp_retireEach (rs : List SessionRef) (g : Gateway) :
    ((rs.foldl (fun g q => g.retire q reason) g).session? r).map stamp =
      (g.session? r).map stamp := by
  induction rs generalizing g with
  | nil => rfl
  | cons q rs ih =>
      exact (ih _).trans (stamp_shut (g := { g with live := g.live.filter (· ≠ q) }))

theorem activity_retireEach (rs : List SessionRef) (g : Gateway) :
    ((rs.foldl (fun g q => g.retire q reason) g).session? r).map lastActivity =
      (g.session? r).map lastActivity :=
  activity_of_stamp (stamp_retireEach rs g)

theorem activity_message {id : String} {m : Message} (hstep : g.perform (.control q) = some g')
    (hin : (g.process? q).bind Process.incoming? = some (id, m))
    (hfind : g.find? id = some (r, s)) : (g'.session? r).map lastActivity = some g.now := by
  obtain ⟨x, hx, hincoming⟩ := Option.bind_eq_some_iff.mp hin
  obtain ⟨y, -, rfl⟩ := of_incoming hx hincoming hstep
  have hget : g.get id = .ok (r, s) := by rw [get, hfind]
  have hhandled := mark_of_profile (f := lastActivity) (r := r)
    (profile_setProcess.trans (profile_handle (m := m) hget) :
      ((g.handle id m).2.setProcess q y).profile lastActivity = _)
  obtain ⟨limiters, hs⟩ := Session.validate_eq g.settings.validation g.now (s.touch g.now) m
  have hvalid : (g.validate r s m).2.session? r = some { s.touch g.now with limiters } :=
    (session?_setSession_self (find?_spec hfind).2.1).trans (congrArg some hs)
  rw [hhandled, hvalid]
  rfl

theorem activity_stirred (hstep : g.perform a = some g') (hr : Moment.stirs r ⟨g, a, g'⟩ = true) :
    (g'.session? r).map lastActivity = some g.now := by
  unfold Moment.stirs at hr
  split at hr
  · rename_i draws owner kind params hact
    cases hact
    obtain ⟨⟨q, g₁⟩, hopen, rfl⟩ := Option.map_eq_some_iff.mp hstep
    obtain rfl : g.sessions.length = r := of_decide_eq_true hr
    obtain ⟨id, -, heq⟩ := Option.map_eq_some_iff.mp hopen
    cases heq
    simp [session?, Session.opened]
  · rename_i q hact
    cases hact
    obtain rfl : q = r := of_decide_eq_true hr
    obtain ⟨s, hs, rfl⟩ := Option.map_eq_some_iff.mp hstep
    rw [session?_setSession_self hs]
    rfl
  · obtain ⟨⟨s, m⟩, hheard⟩ := Option.isSome_iff_exists.mp hr
    obtain ⟨q, id, hact, hin, hfind⟩ := Moment.of_heard? hheard
    cases hact
    exact activity_message hstep hin hfind

theorem activity_unstirred (hl : g.live.Nodup) (hstep : g.perform a = some g')
    (hr : Moment.stirs r ⟨g, a, g'⟩ = false) :
    (g'.session? r).map lastActivity = (g.session? r).map lastActivity := by
  rcases profiled_perform (f := lastActivity) hl hstep with
    hsame | ⟨rfl, hin, hfind, hvalid⟩ | ⟨rfl, hs, rfl⟩ | ⟨rfl, hs, rfl⟩ | ⟨rfl, hopen⟩ |
      ⟨-, rfl⟩ | ⟨rs, -, -, hdesk⟩ | ⟨q, rfl, rfl⟩
  · exact mark_of_profile hsame
  · rename_i q id m found s
    have hne : r ≠ found := by
      rintro rfl
      simp [Moment.stirs, Moment.heard?, hin, hfind] at hr
    have hkept : (g.validate found s m).2.session? r = g.session? r :=
      (session?_setSession (find?_spec hfind).2.1).trans (if_neg hne)
    exact (mark_of_profile hvalid).trans (congrArg (Option.map lastActivity) hkept)
  · rename_i q s overrides
    have hsame : (g.setSession q { s with overrides }).profile lastActivity = _ :=
      profile_setSession hs rfl
    exact mark_of_profile hsame
  · rename_i q s
    have hne : r ≠ q := Ne.symm (of_decide_eq_false hr)
    rw [session?_setSession hs, if_neg hne]
  · obtain ⟨s₁, -, rfl, -, hsession⟩ := session?_openSession hopen
    have hne : r ≠ g.sessions.length := Ne.symm (of_decide_eq_false hr)
    rw [hsession, if_neg hne]
  · rfl
  · rw [session?_of_desk hdesk, activity_retireEach]
  · exact activity_shut

def Dated (ms : List Moment) (g : Gateway) : Prop :=
  ∀ r, (g.session? r).map lastActivity = lastStir? r ms

theorem Dated.perform {ms : List Moment} (h : g.Dated ms) (hl : g.live.Nodup)
    (hstep : g.perform a = some g') : g'.Dated (ms ++ [⟨g, a, g'⟩]) := by
  intro r
  rw [lastStir?_snoc]
  split
  · exact activity_stirred hstep ‹_›
  · rw [activity_unstirred hl hstep (eq_false_of_ne_true ‹_›), h r]

theorem IsNew.dated (h₀ : g.IsNew) : g.Dated [] := by
  obtain ⟨settings, tools, epoch, rfl⟩ := h₀
  exact fun r => rfl

theorem stirred_or_kept (hl : g.live.Nodup) (hn : g.Numbered) (hstep : g.perform a = some g')
    (hr : r ∈ g'.live) (hs' : g'.session? r = some s') : s'.lastActivity = g.now ∨
      r ∈ g.live ∧ ∃ s, g.session? r = some s ∧ s'.id = s.id ∧
        s'.lastActivity = s.lastActivity := by
  cases hstir : Moment.stirs r ⟨g, a, g'⟩ with
  | true =>
      have hnow := activity_stirred hstep hstir
      rw [hs'] at hnow
      exact .inl (Option.some.inj hnow)
  | false =>
      have hkept := activity_unstirred hl hstep hstir
      rw [hs', Option.map_some] at hkept
      obtain ⟨s, hs, hsame⟩ := Option.map_eq_some_iff.mp hkept.symm
      obtain ⟨es, hp, -⟩ := posted_perform hn hstep
      obtain ⟨s'', hs'', hage⟩ := hp.ages r s hs
      cases hs''.symm.trans hs'
      refine .inr ⟨by_contra fun hgone => ?_, s, hs, hage.named, hsame.symm⟩
      exact absent_perform hl (lt_of_session? hs) hgone hstep hr

end Gateway

theorem Run.dated {g₀ g : Gateway} {ms : List Moment} (h₀ : g₀.IsNew) (hr : Run g₀ ms g) :
    g.Dated ms := by
  induction hr with
  | nil => exact h₀.dated
  | snoc hrun hstep ih => exact ih.perform (hrun.registered h₀).nodup hstep

end AgentGateway
