import AgentGateway.Proofs.Roster
import AgentGateway.Proofs.Settings

namespace AgentGateway

inductive RateEvent where
  | message (now : Nanos) (m : Message)
  | overrides (o : RateOverrides)
  | shut

namespace Session

def meter (s : Session) : Option BucketPair × RateOverrides × Bool :=
  (s.limiters, s.overrides, s.isClosed)

def verdict? (v : ValidationSettings) (s : Session) : RateEvent → Option (Except Rejection Unit)
  | .message now m => some ((Pipeline.standard v).validate now s m).1
  | _ => none

def serve (v : ValidationSettings) (s : Session) : RateEvent → Session
  | .message now m => ((Pipeline.standard v).validate now s m).2
  | .overrides overrides => { s with overrides }
  | .shut => s.close.elim s Prod.snd

def serveAll (v : ValidationSettings) (s : Session) (es : List RateEvent) : Session :=
  es.foldl (serve v) s

def verdicts (v : ValidationSettings) : Session → List RateEvent → List (Except Rejection Unit)
  | _, [] => []
  | s, e :: es => (s.verdict? v e).toList ++ verdicts v (s.serve v e) es

variable {v : ValidationSettings} {now : Nanos} {s t : Session} {m : Message} {e : RateEvent}

theorem serveAll_snoc (es : List RateEvent) :
    s.serveAll v (es ++ [e]) = (s.serveAll v es).serve v e := by
  simp [serveAll]

theorem verdicts_snoc (es : List RateEvent) :
    s.verdicts v (es ++ [e]) = s.verdicts v es ++ ((s.serveAll v es).verdict? v e).toList := by
  induction es generalizing s with
  | nil => exact List.append_nil _
  | cons e es ih =>
      rw [List.cons_append, verdicts, verdicts, ih, List.append_assoc]
      rfl

instance steady_meter : Steady meter where
  transition {s s' target} h := by
    have hclosed := Steady.toCalm.transition (f := isClosed) h
    unfold transition at h
    split at h
    · cases h
    · split at h <;> cases h
      simp [meter, hclosed]
  logLevel _ _ := rfl
  pending _ _ := rfl
  outbound _ _ := rfl
  nextRequestId _ _ := rfl

theorem of_meter (h : s.meter = t.meter) : s.limiters = t.limiters ∧ s.overrides = t.overrides ∧
    s.isClosed = t.isClosed :=
  ⟨congrArg Prod.fst h, congrArg (·.2.1) h, congrArg (·.2.2) h⟩

theorem validate_congr (h : s.meter = t.meter) :
    ((Pipeline.standard v).validate now s m).1 = ((Pipeline.standard v).validate now t m).1 ∧
      ((Pipeline.standard v).validate now s m).2.meter =
        ((Pipeline.standard v).validate now t m).2.meter := by
  obtain ⟨hlimiters, hoverrides, hclosed⟩ := of_meter h
  have hpair : Validator.limitersOf v now s = Validator.limitersOf v now t := by
    rw [Validator.limitersOf, Validator.limitersOf, hlimiters, hoverrides]
  rw [validate_standard, validate_standard, hpair]
  split
  · exact ⟨rfl, h⟩
  · refine ⟨rfl, ?_⟩
    have hstatus : decide (s.status = .closed) = decide (t.status = .closed) := hclosed
    simp only [meter, isClosed, hoverrides, hstatus]

theorem close_congr (h : s.meter = t.meter) :
    (s.close.elim s Prod.snd).meter = (t.close.elim t Prod.snd).meter := by
  obtain ⟨hlimiters, hoverrides, hclosed⟩ := of_meter h
  by_cases hs : s.status = .closed
  · have ht : t.status = .closed := by simpa [isClosed, hs] using hclosed.symm
    simpa [close, hs, ht] using h
  · have ht : t.status ≠ .closed := by simpa [isClosed, hs] using hclosed.symm
    simp [close, hs, ht, meter, isClosed, hoverrides]

end Session

namespace Moment

def heard? (r : SessionRef) (x : Moment) : Option (Session × Message) :=
  match x.act with
  | .control q => do
    let (id, m) ← (x.before.process? q).bind Process.incoming?
    let (found, s) ← x.before.find? id
    if found = r then some (s, m) else none
  | _ => none

/-- Whether a message that comes in on a session is let in, or why and for how long it is not. -/
def verdict? (r : SessionRef) (x : Moment) : Option (Except Rejection Unit) :=
  (x.heard? r).map fun (s, m) => (x.before.validate r s m).1

def rateEvent? (r : SessionRef) (x : Moment) : Option RateEvent :=
  match x.act with
  | .setOverrides q overrides => if q = r then some (.overrides overrides) else none
  | .shut q => if q = r then some .shut else none
  | _ => (x.heard? r).map fun (_, m) => .message x.before.now m

variable {r : SessionRef} {x : Moment} {s : Session} {m : Message}

theorem of_heard? (h : x.heard? r = some (s, m)) : ∃ q id, x.act = .control q ∧
    (x.before.process? q).bind Process.incoming? = some (id, m) ∧
    x.before.find? id = some (r, s) := by
  unfold heard? at h
  split at h
  · rename_i q hact
    obtain ⟨⟨id, m'⟩, hin, h⟩ := Option.bind_eq_some_iff.mp h
    obtain ⟨⟨found, s'⟩, hfind, h⟩ := Option.bind_eq_some_iff.mp h
    obtain ⟨rfl, heq⟩ := Option.ite_none_right_eq_some.mp h
    cases heq
    exact ⟨q, id, hact, hin, hfind⟩
  · cases h

theorem rateEvent?_of_heard? (h : x.heard? r = some (s, m)) :
    x.rateEvent? r = some (.message x.before.now m) := by
  obtain ⟨q, id, hact, -⟩ := of_heard? h
  simp [rateEvent?, hact, h]

theorem verdict?_eq_none (h : x.rateEvent? r = none) : x.verdict? r = none := by
  cases hheard : x.heard? r with
  | none => rw [verdict?, hheard, Option.map_none]
  | some found => cases h.symm.trans (rateEvent?_of_heard? hheard)

theorem unheard {e : RateEvent} {t : Session} {v : ValidationSettings} (h : x.rateEvent? r = some e)
    (hheard : x.heard? r = none) : t.verdict? v e = none := by
  unfold rateEvent? at h
  split at h
  · obtain ⟨-, heq⟩ := Option.ite_none_right_eq_some.mp h
    cases heq
    rfl
  · obtain ⟨-, heq⟩ := Option.ite_none_right_eq_some.mp h
    cases heq
    rfl
  · rw [hheard] at h
    cases h

end Moment

namespace Gateway

open Session (meter)

variable {g g' : Gateway} {r q : SessionRef} {s t : Session} {a : Act} {e : RateEvent}
  {reason : CloseReason}

def Measures (t : Session) (r : SessionRef) (g : Gateway) : Prop :=
  (g.session? r).map meter = some t.meter

theorem mark_shut : ((g.shut q).2.session? r).map meter =
    (g.session? r).map fun s => if r = q then (s.close.elim s Prod.snd).meter else s.meter := by
  rw [session?_shut, Option.map_map]
  exact Option.map_congr fun s _ => apply_ite meter _ _ _

theorem mark_retire (hne : r ≠ q) :
    ((g.retire q reason).session? r).map meter = (g.session? r).map meter := by
  have hshut := mark_shut (g := { g with live := g.live.filter (· ≠ q) }) (r := r) (q := q)
  simp only [if_neg hne] at hshut
  exact hshut

theorem mark_retireEach (rs : List SessionRef) (hr : r ∉ rs) :
    ((rs.foldl (fun g q => g.retire q reason) g).session? r).map meter =
      (g.session? r).map meter := by
  induction rs generalizing g with
  | nil => rfl
  | cons q rs ih =>
      rw [List.mem_cons, not_or] at hr
      exact (ih hr.2).trans (mark_retire hr.1)

theorem measures_message {id : String} {m : Message} (h : g.Measures t r)
    (hstep : g.perform (.control q) = some g')
    (hin : (g.process? q).bind Process.incoming? = some (id, m))
    (hfind : g.find? id = some (r, s)) :
    (g.validate r s m).1 = ((Pipeline.standard g.settings.validation).validate g.now t m).1 ∧
      g'.Measures ((Pipeline.standard g.settings.validation).validate g.now t m).2 r := by
  obtain ⟨x, hx, hincoming⟩ := Option.bind_eq_some_iff.mp hin
  obtain ⟨y, -, rfl⟩ := of_incoming hx hincoming hstep
  obtain ⟨-, hs, -⟩ := find?_spec hfind
  have hget : g.get id = .ok (r, s) := by rw [get, hfind]
  have hmeter : (s.touch g.now).meter = t.meter := by
    rw [Measures, hs] at h
    exact Option.some.inj h
  obtain ⟨hverdict, hnext⟩ := Session.validate_congr hmeter
  refine ⟨hverdict, ?_⟩
  have hhandled := mark_of_profile (f := meter) (r := r)
    (profile_setProcess.trans (profile_handle (m := m) hget) :
      ((g.handle id m).2.setProcess q y).profile meter = _)
  refine hhandled.trans ?_
  have hvalid : (g.validate r s m).2.session? r = some ((Pipeline.standard
      g.settings.validation).validate g.now (s.touch g.now) m).2 := session?_setSession_self hs
  exact (congrArg (Option.map meter) hvalid).trans (congrArg some hnext)

theorem measures_own (h : g.Measures t r) (hstep : g.perform a = some g')
    (he : Moment.rateEvent? r ⟨g, a, g'⟩ = some e) :
    Moment.verdict? r ⟨g, a, g'⟩ = t.verdict? g.settings.validation e ∧
      g'.Measures (t.serve g.settings.validation e) r := by
  obtain ⟨s, hs, hmeter⟩ := Option.map_eq_some_iff.mp h
  cases a with
  | setOverrides q overrides =>
      obtain ⟨rfl, heq⟩ := Option.ite_none_right_eq_some.mp he
      cases heq
      obtain ⟨s', hs', rfl⟩ := Option.map_eq_some_iff.mp hstep
      cases hs.symm.trans hs'
      refine ⟨rfl, ?_⟩
      rw [Measures, session?_setSession_self hs]
      exact congrArg (fun x => some (x.1, overrides, x.2.2)) hmeter
  | shut q =>
      obtain ⟨rfl, heq⟩ := Option.ite_none_right_eq_some.mp he
      cases heq
      cases hstep
      refine ⟨rfl, ?_⟩
      rw [Measures, mark_shut, hs, Option.map_some, if_pos rfl]
      exact congrArg some (Session.close_congr hmeter)
  | control q =>
      obtain ⟨⟨s', m⟩, hheard, heq⟩ := Option.map_eq_some_iff.mp he
      cases heq
      obtain ⟨q', id, hact, hin, hfind⟩ := Moment.of_heard? hheard
      cases hact
      obtain ⟨hverdict, hnext⟩ := measures_message h hstep hin hfind
      exact ⟨by rw [Moment.verdict?, hheard]; exact congrArg some hverdict, hnext⟩
  | _ => cases he

theorem measures_other (hl : g.live.Nodup) (hr : r < g.sessions.length) (h : g.Measures t r)
    (hstep : g.perform a = some g') (he : Moment.rateEvent? r ⟨g, a, g'⟩ = none) :
    r ∉ g'.live ∨ g'.Measures t r := by
  rcases profiled_perform (f := meter) hl hstep with
    hsame | ⟨rfl, hin, hfind, hvalid⟩ | ⟨rfl, hs, rfl⟩ | ⟨rfl, hs, rfl⟩ | ⟨-, hopen⟩ |
      ⟨-, rfl⟩ | ⟨rs, -, -, hdesk⟩ | ⟨q, rfl, rfl⟩
  · exact .inr ((mark_of_profile hsame).trans h)
  · rename_i q id m found s
    have hne : r ≠ found := by
      rintro rfl
      simp [Moment.rateEvent?, Moment.heard?, hin, hfind] at he
    have hkept : (g.validate found s m).2.session? r = g.session? r :=
      (session?_setSession (find?_spec hfind).2.1).trans (if_neg hne)
    exact .inr ((mark_of_profile hvalid).trans (hkept ▸ h))
  · rename_i q s overrides
    have hne : r ≠ q := by
      rintro rfl
      simp [Moment.rateEvent?] at he
    refine .inr ?_
    rw [Measures, session?_setSession hs, if_neg hne]
    exact h
  · rename_i q s
    have hkept : (g.setSession q (s.touch g.now)).profile meter = _ := profile_setSession hs rfl
    exact .inr ((mark_of_profile hkept).trans h)
  · rename_i q _ _ _ _
    obtain ⟨s₁, -, rfl, -, hsession⟩ := session?_openSession hopen
    refine .inr ?_
    rw [Measures, hsession, if_neg (Nat.ne_of_lt hr)]
    exact h
  · exact .inr h
  · by_cases hmem : r ∈ rs
    · have hlive : g'.live = g.live.filter (· ∉ rs) :=
        (congrArg Desk.live hdesk).trans (live_retireEach rs g)
      exact .inl (by simp [hlive, hmem])
    · refine .inr ?_
      rw [Measures, session?_of_desk hdesk, mark_retireEach rs hmem]
      exact h
  · have hne : r ≠ q := by
      rintro rfl
      simp [Moment.rateEvent?] at he
    refine .inr ?_
    rw [Measures, mark_shut]
    simp only [if_neg hne]
    exact h

theorem absent_perform (hl : g.live.Nodup) (hr : r < g.sessions.length) (hgone : r ∉ g.live)
    (hstep : g.perform a = some g') : r ∉ g'.live := by
  rcases enrolled_perform hl hstep with hsame | ⟨-, hopen⟩ | ⟨rs, -, -, hdesk⟩ | ⟨q, rfl, rfl⟩
  · rwa [show g'.live = g.live from congrArg Roster.live hsame]
  · obtain ⟨-, -, rfl, hlive, -⟩ := session?_openSession hopen
    rw [hlive]
    simpa [hgone] using Nat.ne_of_lt hr
  · have hlive : g'.live = g.live.filter (· ∉ rs) :=
      (congrArg Desk.live hdesk).trans (live_retireEach rs g)
    rw [hlive]
    exact fun hr => hgone (List.mem_of_mem_filter hr)
  · rwa [live_shut]

end Gateway

section Run

open Gateway

variable {g₀ g₁ g : Gateway} {past before ms after : List Moment} {r : SessionRef} {t : Session}
  {v : ValidationSettings} {e : RateEvent} {x : Moment}

theorem Moment.heard?_absent (hgone : r ∉ x.before.live) : x.heard? r = none := by
  by_contra hne
  obtain ⟨⟨s, m⟩, hheard⟩ := Option.ne_none_iff_exists'.mp hne
  obtain ⟨q, id, -, -, hfind⟩ := of_heard? hheard
  exact hgone (find?_spec hfind).1

theorem Run.verdicts (h₀ : g₀.IsNew) (hpast : Run g₀ past g₁) (hr : Run g₁ ms g)
    (hlt : r < g₁.sessions.length) (ht : g₁.Measures t r) :
    ms.filterMap (Moment.verdict? r) =
        t.verdicts g₁.settings.validation (ms.filterMap (Moment.rateEvent? r)) ∧
      (r ∉ g.live ∨ g.Measures
        (t.serveAll g₁.settings.validation (ms.filterMap (Moment.rateEvent? r))) r) := by
  have hn := hpast.numbered h₀.numbered
  induction hr with
  | nil => exact ⟨rfl, .inr ht⟩
  | @snoc ms g a g' hrun hstep ih =>
      obtain ⟨hverdicts, hstate⟩ := ih
      have hl := ((hpast.append hrun).registered h₀).nodup
      have hlt' := hrun.opened hn hlt
      rw [filterMap_snoc, filterMap_snoc, hverdicts]
      cases he : Moment.rateEvent? r ⟨g, a, g'⟩ with
      | none =>
          simp only [Moment.verdict?_eq_none he, Option.toList_none, List.append_nil]
          refine ⟨trivial, ?_⟩
          rcases hstate with hgone | ht'
          · exact .inl (absent_perform hl hlt' hgone hstep)
          · exact measures_other hl hlt' ht' hstep he
      | some e =>
          rw [Option.toList_some, Session.verdicts_snoc, Session.serveAll_snoc]
          rcases hstate with hgone | ht'
          · have hunheard : Moment.heard? r ⟨g, a, g'⟩ = none := Moment.heard?_absent hgone
            refine ⟨?_, .inl (absent_perform hl hlt' hgone hstep)⟩
            rw [Moment.unheard he hunheard, Moment.verdict?, hunheard]
            rfl
          · obtain ⟨hverdict, hnext⟩ := measures_own ht' hstep he
            rw [hrun.settings] at hverdict hnext
            exact ⟨by rw [hverdict], .inr hnext⟩

/-- What becomes of the messages that come in on a session is what becomes of them on a fresh one
with the same params that is by itself, and to which the same happens at the same times. Whatever
happens to other sessions does not matter. -/
theorem throttled_apart {b : Moment} {draws : List String} {owner : String} {kind : SessionKind}
    {params : SessionParams} (h₀ : g₀.IsNew) (hr : Run g₀ (before ++ b :: after) g)
    (hb : b.before.openSession draws owner kind params = some (r, b.after)) (id owner' : String)
    (kind' : SessionKind) (buffer : Nat) (now : Nanos) :
    after.filterMap (Moment.verdict? r) =
      (Session.opened id owner' kind' params buffer now).verdicts g₀.settings.validation
        (after.filterMap (Moment.rateEvent? r)) := by
  obtain ⟨hbefore, hstep, hrest⟩ := hr.split rfl
  have hpast : Run g₀ (before ++ [b]) b.after := hbefore.snoc hstep
  obtain ⟨id', -, heq⟩ := Option.map_eq_some_iff.mp hb
  obtain ⟨rfl, hafter⟩ := Prod.mk.inj heq
  have hs : b.after.session? b.before.sessions.length = some (Session.opened id' owner kind params
      b.before.settings.outboundBuffer b.before.now) := by
    rw [← hafter]
    exact List.getElem?_concat_length
  have hmeter : b.after.Measures (Session.opened id owner' kind' params buffer now)
      b.before.sessions.length := by
    rw [Measures, hs]
    rfl
  rw [← hpast.settings]
  exact (hpast.verdicts h₀ hrest (lt_of_session? hs) hmeter).1

end Run

/-- What opens two sessions that may take up one message each second, and has the first one hear two
messages and the other one a message in between. -/
def Act.sharing : List Act :=
  let params : SessionParams := { overrides := { perSecond := some 1 } }
  let ping : Message := .request (.number 1) "ping" none
  [.openSession ["a"] "owner" .server params, .openSession ["b"] "owner" .server params,
    .submit "a" ping, .submit "b" ping, .submit "a" ping, .control 0, .control 1, .control 2]

theorem throttled_apart_interleaved : ∃ (after : List Moment) (b : Moment) (g : Gateway)
    (params : SessionParams), Run (Gateway.new {} []) ([] ++ b :: after) g ∧
    b.before.openSession ["a"] "owner" .server params = some (0, b.after) ∧
    after.filterMap (Moment.verdict? 0) =
      (Session.opened "alone" "other" .client params 1 0).verdicts {}
        (after.filterMap (Moment.rateEvent? 0)) ∧
    (after.filterMap (Moment.verdict? 0)).map (·.toOption.isSome) = [true, false] ∧
    (after.filterMap (Moment.verdict? 1)).map (·.toOption.isSome) = [true] := by
  obtain ⟨ms, g, hr, hacts, h⟩ := Run.exists_of_replay Act.sharing (Gateway.new {} [])
    (fun ms _ => (ms[0]?.any fun b => b.before.sessions.length = 0) ∧
      ((ms.drop 1).filterMap (Moment.verdict? 0)).map (·.toOption.isSome) = [true, false] ∧
      ((ms.drop 1).filterMap (Moment.verdict? 1)).map (·.toOption.isSome) = [true])
    (by decide +kernel)
  obtain ⟨hb, hfirst, hsecond⟩ := of_decide_eq_true h
  obtain ⟨b, hb, hlength⟩ := (Option.any_eq_true ..).mp hb
  have hact : b.act =
      .openSession ["a"] "owner" .server { overrides := { perSecond := some 1 } } :=
    (Option.some.inj (Moment.act_of_acts hacts hb)).symm
  rw [← take_append_cons_drop hb, List.take_zero] at hr
  obtain ⟨-, hstep, -⟩ := hr.split rfl
  rw [hact] at hstep
  obtain ⟨⟨r, g'⟩, hopen, heq⟩ := Option.map_eq_some_iff.mp hstep
  obtain rfl : g' = b.after := heq
  obtain rfl : r = 0 := by
    obtain ⟨-, -, hr, -⟩ := Gateway.session?_openSession hopen
    rw [hr]
    exact of_decide_eq_true hlength
  exact ⟨_, b, g, _, hr, hopen,
    throttled_apart ⟨{}, [], 0, rfl⟩ hr hopen "alone" "other" .client 1 0, hfirst, hsecond⟩

end AgentGateway
