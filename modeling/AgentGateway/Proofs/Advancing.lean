import AgentGateway.Proofs.Listing
/-!
What a walk through a listing asks for. The cursor of the last page goes into the params of every
further request, if they can hold one; params of another form are sent as they are, so that the
first page is asked for again and again.
-/

namespace AgentGateway

open Json (Value)

theorem Channel.queue_withdraw {α : Type} {b : Channel α} {p : ProcessId} :
    (b.withdraw p).2.queue = b.queue := by
  unfold withdraw
  split
  · unfold grantNext
    split <;> rfl
  · rfl

namespace Gateway

variable {g g₁ g' : Gateway} {p : ProcessId} {q r : SessionRef} {s t : Session} {c c' : Call}
  {d : Delivery} {h : Handle}

theorem outbox_setSession_eq (hs : g.session? q = some s) : (g.setSession q t).outbox r =
    if r = q then t.outbound.queue else g.outbox r := by
  split
  · rename_i heq
    subst heq
    exact outbox_setSession hs
  · rename_i hne
    simp [outbox, session?, setSession, Ne.symm hne]

theorem outbox_setSession_same (hs : g.session? q = some s)
    (hq : t.outbound.queue = s.outbound.queue) : (g.setSession q t).outbox r = g.outbox r := by
  rw [outbox_setSession_eq hs]
  split
  · rename_i heq
    subst heq
    simp [outbox, hs, hq]
  · rfl

theorem outbox_settleTicket {u : Ticket} {state : WaiterState} :
    (g.settleTicket u state).2.outbox r = g.outbox r := by
  unfold settleTicket
  split
  · rfl
  · exact (outbox_of_desk (desk_wakeAll _)).trans rfl

theorem outbox_dropHandle : (g.dropHandle h).outbox r = g.outbox r := by
  change (g.cancelPending h.session h.id).2.outbox r = _
  unfold cancelPending
  split
  · rfl
  · rename_i e s' htake
    obtain ⟨s, hs, htake⟩ := Option.bind_eq_some_iff.mp htake
    obtain ⟨e', -, heq⟩ := Option.map_eq_some_iff.mp htake
    cases heq
    exact outbox_settleTicket.trans (outbox_setSession_same hs rfl)

theorem outbox_abandon : (g.abandon p q).outbox r = g.outbox r := by
  unfold abandon
  split
  · rfl
  · rename_i s hs
    exact (outbox_of_desk (desk_wakeAll _)).trans (outbox_setSession_same hs Channel.queue_withdraw)

theorem outbox_dropCall : (g.dropCall p c).outbox r = g.outbox r := by
  unfold dropCall
  split
  · exact outbox_dropHandle.trans ((outbox_of_desk desk_clearTimer).trans outbox_abandon)
  · exact outbox_dropHandle.trans (outbox_of_desk desk_clearTimer)
  · rfl

theorem outbox_attempt {m : Message} (hs : g.session? q = some s) :
    let x := match s.outbound.offerFor p m with
      | (.sent, outbound) => (DeliveryState.sent, g.setSession q { s with outbound })
      | (.full, outbound) => (.pending (.waiting m), g.setSession q { s with outbound })
      | (.disconnected, _) => (.failed (.disconnected s.id), g)
    x.2.outbox r = g.outbox r ∨ x.2.outbox r = g.outbox r ++ [m] := by
  rcases offerFor_cases (p := p) s.outbound m with ⟨b, h, hb⟩ | ⟨b, h, hb⟩ | ⟨h, -⟩
  · simp only [h]
    rw [outbox_setSession_eq hs]
    split
    · rename_i heq
      subst heq
      exact .inr (by simp [outbox, hs, hb])
    · exact .inl rfl
  · simp only [h]
    exact .inl (outbox_setSession_same hs hb)
  · simp [h]

theorem outbox_deliver : (g.deliver p q d).2.outbox r = g.outbox r ∨
    (g.deliver p q d).2.outbox r = g.outbox r ++ [d.message] := by
  unfold deliver
  split
  · exact .inl rfl
  · rename_i s hs
    cases d with
    | fresh m =>
        dsimp only
        split
        · exact outbox_attempt hs
        · exact .inl rfl
    | waiting m => exact outbox_attempt hs

theorem outbox_call? (hcall : g.call? p c = some (c', g₁)) : g₁.outbox r = g.outbox r ∨
    ∃ h d, c.stage = .sending h d ∧ g₁.outbox r = g.outbox r ++ [d.message] := by
  have hend {g : Gateway} {h : Handle} : ((g.clearTimer p).dropHandle h).outbox r = g.outbox r :=
    outbox_dropHandle.trans (outbox_of_desk desk_clearTimer)
  unfold call? at hcall
  cases hs : c.stage with
  | start =>
      simp only [hs] at hcall
      cases hcall
      refine .inl ?_
      unfold beginCall
      split
      · rfl
      · rename_i q s hget
        have hs := session?_of_get hget
        dsimp only
        split
        · exact outbox_setSession_same hs rfl
        · rename_i s' hreg
          have hqueue : s'.outbound.queue = s.outbound.queue := by
            unfold Session.register at hreg
            split at hreg
            · cases hreg
            · split at hreg <;> cases hreg
              rfl
          exact outbox_setSession_same (g := (g.takeTicket (some p)).2) hs hqueue
  | sending h d =>
      simp only [hs, Option.map_eq_some_iff, sendCall] at hcall
      obtain ⟨⟨stage, g₂⟩, hsend, heq⟩ := hcall
      cases heq
      have hdel := outbox_deliver (g := g) (p := p) (q := h.session) (r := r) (d := d)
      generalize g.deliver p h.session d = z at hsend hdel
      obtain ⟨state, g₃⟩ := z
      have hgrown {g₄ : Gateway} (hg : g₄.outbox r = g₃.outbox r) : g₄.outbox r = g.outbox r ∨
          ∃ h' d', CallStage.sending h d = .sending h' d' ∧
            g₄.outbox r = g.outbox r ++ [d'.message] :=
        hdel.imp hg.trans fun hgrows => ⟨h, d, rfl, hg.trans hgrows⟩
      cases state with
      | sent =>
          cases hsend
          refine hgrown (outbox_of_desk ?_)
          cases c.timeout with
          | none => rfl
          | some t => exact desk_setTimer
      | pending d' =>
          dsimp only at hsend
          split at hsend <;> cases hsend
          exact hgrown rfl
      | failed e =>
          cases hsend
          exact hgrown hend
  | waiting h deadline =>
      simp only [hs, Option.map_eq_some_iff, awaitCall] at hcall
      obtain ⟨⟨stage, g₂⟩, hwait, heq⟩ := hcall
      cases heq
      refine .inl ?_
      split at hwait
      · cases hwait
        exact hend
      · split at hwait <;> cases hwait
        exact hend
      · cases hwait
        exact hend
  | done result => simp [hs] at hcall

theorem outbox_walk? {w w' : PageWalk} (hwalk : g.walk? p w = some (w', g₁)) :
    g₁.outbox r = g.outbox r ∨ ∃ c h d, w.call = some c ∧ c.stage = .sending h d ∧
      g₁.outbox r = g.outbox r ++ [d.message] := by
  unfold walk? at hwalk
  split at hwalk
  · cases hwalk
  · rename_i c hc
    split at hwalk
    · cases hwalk
      exact .inl outbox_dropCall
    · split at hwalk
      · cases hwalk
        exact .inl rfl
      · obtain ⟨⟨c', g₂⟩, hcall, heq⟩ := Option.map_eq_some_iff.mp hwalk
        cases heq
        exact (outbox_call? hcall).imp_right fun ⟨h, d, hs, hgrows⟩ => ⟨c, h, d, hc, hs, hgrows⟩

end Gateway

theorem Moment.sent_of_walk {g g' : Gateway} {a : Act} {p : ProcessId} {r : SessionRef}
    {w : PageWalk} {msg : Message} (hw : g.walkOf? p = some w) (hstep : g.perform a = some g')
    (hmsg : msg ∈ Moment.sent p r ⟨g, a, g'⟩) :
    ∃ c h d, w.call = some c ∧ c.stage = .sending h d ∧ msg = d.message := by
  have ha : a = .control p := by
    refine Classical.byContradiction fun ha => ?_
    have hnone : g.invocation? p = none := by
      simp [Gateway.invocation?, Gateway.process?_of_walkOf? hw, Process.invocation?]
    rw [Gateway.sent_idle hstep ha hnone] at hmsg
    cases hmsg
  subst ha
  obtain ⟨w', g₁, hwalk, -, hdesk⟩ := Gateway.control_of_walk hw hstep
  have hbox : g'.outbox r = g₁.outbox r := Gateway.outbox_of_desk hdesk
  simp only [Moment.sent, if_true, hbox] at hmsg
  rcases Gateway.outbox_walk? (r := r) hwalk with hsame | ⟨c, h, d, hc, hs, hgrows⟩
  · rw [hsame, List.drop_length] at hmsg
    cases hmsg
  · rw [hgrows, List.drop_left] at hmsg
    exact ⟨c, h, d, hc, hs, List.mem_singleton.mp hmsg⟩

theorem Gateway.call?_keeps {g g₁ : Gateway} {p : ProcessId} {c c' : Call}
    (hcall : g.call? p c = some (c', g₁)) : ∃ stage, c' = { c with stage } := by
  unfold call? at hcall
  split at hcall
  · cases hcall
    exact ⟨_, rfl⟩
  · obtain ⟨x, -, heq⟩ := Option.map_eq_some_iff.mp hcall
    cases heq
    exact ⟨_, rfl⟩
  · obtain ⟨x, -, heq⟩ := Option.map_eq_some_iff.mp hcall
    cases heq
    exact ⟨_, rfl⟩
  · cases hcall

def cursorOf (ys : List Message) : Option String :=
  (ys.getLast?.bind Message.result).bind nextCursor?

namespace PageWalk

variable {w : PageWalk} {method : String} {params : Option Value} {ys : List Message}

structure Heads (method : String) (params : Option Value) (ys : List Message) (w : PageWalk) :
    Prop where
  method : w.method = method
  params : w.params = params
  cursor : w.call.isSome = true → w.cursor = cursorOf ys
  call : ∀ c, w.call = some c → ∃ stage, c = { w.nextCall with stage }

theorem heads_ended (hm : w.method = method) (hp : w.params = params) (hc : w.call = none) :
    w.Heads method params ys where
  method := hm
  params := hp
  cursor h := by rw [hc] at h; cases h
  call c h := by rw [hc] at h; cases h

theorem Heads.follow (h : w.Heads method params ys) (hcall : w.call.isSome = true)
    (result : Except CallError Message) : ∃ new, (w.follow result).items = w.items ++ new ∧
      (w.follow result).Heads method params (ys ++ new) := by
  have hskip : ∃ new, w.skip.items = w.items ++ new ∧ w.skip.Heads method params (ys ++ new) := by
    unfold skip
    dsimp only
    split
    · exact ⟨_, rfl, heads_ended h.method h.params rfl⟩
    · refine ⟨[], (List.append_nil _).symm, ?_⟩
      rw [List.append_nil]
      exact ⟨h.method, h.params, fun _ => h.cursor hcall, fun c hc => ⟨.start, by cases hc; rfl⟩⟩
  cases result with
  | error e => exact ⟨_, rfl, heads_ended h.method h.params rfl⟩
  | ok m =>
      simp only [PageWalk.follow]
      split
      · exact ⟨_, rfl, heads_ended h.method h.params rfl⟩
      · split
        · exact hskip
        · exact hskip
        · rename_i v _ hv
          unfold turn
          split
          · exact ⟨_, rfl, heads_ended h.method h.params rfl⟩
          · rename_i c hc
            refine ⟨_, rfl, h.method, h.params, fun _ => ?_, fun c hc => ⟨.start, by cases hc; rfl⟩⟩
            rw [cursorOf, List.getLast?_concat, Option.bind_some, hv, Option.bind_some, hc]

end PageWalk

theorem Process.Kindred.of_pages {w : PageWalk} {y : Process} (h : Kindred (.pages w) y) :
    ∃ items, y = .pages { w with items } := by
  cases h with
  | same | invocation | settled => exact ⟨w.items, rfl⟩
  | items => exact ⟨_, rfl⟩

/-- That params are absent or an object, so that a cursor can be put into them. -/
def HoldsCursor (params : Option Value) : Prop :=
  params = none ∨ ∃ fields, params = some (.object fields)

theorem withCursor_of_not_holds {params : Option Value} {c : String} (h : ¬ HoldsCursor params) :
    withCursor params (some c) = params := by
  cases params with
  | none => exact absurd (.inl rfl) h
  | some v =>
      cases v with
      | object fields => exact absurd (.inr ⟨fields, rfl⟩) h
      | null | bool | number | string | array => rfl

theorem get?_withCursor {params : Option Value} {c : String} :
    (withCursor params (some c)).bind (·.get? "cursor") = some (.string c) ↔
      HoldsCursor params := by
  have hinsert (fields : List (String × Value)) :
      (KeyOrder.insert "cursor" (.string c) fields).lookup "cursor" = some (.string c) := by
    rw [KeyOrder.lookup_insert, if_pos rfl]
  refine ⟨fun h => ?_, ?_⟩
  · refine Classical.byContradiction fun hnot => ?_
    rw [withCursor_of_not_holds hnot] at h
    obtain ⟨v, rfl, hv⟩ := Option.bind_eq_some_iff.mp h
    cases v with
    | object fields => exact hnot (.inr ⟨fields, rfl⟩)
    | null | bool | number | string | array => cases hv
  · rintro (rfl | ⟨fields, rfl⟩)
    · exact hinsert []
    · exact hinsert fields

def Heading (method : String) (params : Option Value) (p : ProcessId) (ms : List Moment)
    (g : Gateway) : Prop :=
  ∀ y, g.process? p = some y → ∃ w, y = .pages w ∧ w.Heads method params (yieldedIn ms p)

section Run

open Gateway

variable {g₀ g₁ g g' : Gateway} {before ms after : List Moment} {b m : Moment} {a : Act}
  {p : ProcessId} {r : SessionRef} {sessionId method c : String} {params : Option Value}
  {client : ClientSettings} {msg page : Message} {v : Value}

theorem Heading.snoc (h : Heading method params p ms g) (hn : g.Numbered)
    (hlt : p < g.nextProcess) (hstep : g.perform a = some g') :
    Heading method params p (ms ++ [⟨g, a, g'⟩]) g' := by
  intro y hy
  have hyielded : yieldedIn (ms ++ [⟨g, a, g'⟩]) p =
      yieldedIn ms p ++ Moment.yielded p ⟨g, a, g'⟩ := by simp [yieldedIn]
  rw [hyielded]
  by_cases ha : a = .control p
  · subst ha
    obtain ⟨x, hx, -⟩ := Option.bind_eq_some_iff.mp hstep
    obtain ⟨w, rfl, hheads⟩ := h x hx
    have hw := walkOf?_eq hx
    obtain ⟨w', g₁, hwalk, hw', -⟩ := control_of_walk hw hstep
    cases hy.symm.trans (process?_of_walkOf? hw')
    refine ⟨w', rfl, ?_⟩
    rw [Moment.yielded_control hw hw']
    obtain ⟨c, hc, ⟨-, rfl⟩ | ⟨-, hgoing⟩⟩ := walk?_cases hwalk
    · exact PageWalk.heads_ended hheads.method hheads.params rfl
    · rcases hgoing with ⟨result, -, rfl⟩ | ⟨-, c', hcall, rfl⟩
      · obtain ⟨new, hitems, hnew⟩ := hheads.follow (by rw [hc]; rfl) result
        rw [hitems, List.drop_left]
        exact hnew
      · rw [List.drop_length, List.append_nil]
        refine ⟨hheads.method, hheads.params, fun _ => hheads.cursor (by rw [hc]; rfl), ?_⟩
        intro c'' hc''
        cases hc''
        obtain ⟨stage, rfl⟩ := hheads.call c hc
        obtain ⟨stage', rfl⟩ := call?_keeps hcall
        exact ⟨stage', rfl⟩
  · rw [(Moment.quiet_of_other ha).2, List.append_nil]
    obtain ⟨x, hx, hk⟩ := kindred_begun hn hstep ha hlt hy
    obtain ⟨w, rfl, hheads⟩ := h x hx
    obtain ⟨items, rfl⟩ := hk.of_pages
    exact ⟨_, rfl, hheads.method, hheads.params, hheads.cursor, hheads.call⟩

theorem Run.heading (hn : g₁.Numbered) (hlt : p < g₁.nextProcess)
    (h : Heading method params p [] g₁) (hr : Run g₁ ms g) : Heading method params p ms g := by
  induction hr with
  | nil => exact h
  | snoc hrun hstep ih =>
      exact ih.snoc (hrun.numbered hn) (Nat.lt_of_lt_of_le hlt (hrun.grown hn)) hstep

theorem Gateway.process?_of_sent (hstep : g.perform a = some g')
    (hmsg : msg ∈ Moment.sent p r ⟨g, a, g'⟩) : ∃ x, g.process? p = some x := by
  refine Option.ne_none_iff_exists'.mp fun hnone => ?_
  have ha : a ≠ .control p := by
    rintro rfl
    obtain ⟨x, hx, -⟩ := Option.bind_eq_some_iff.mp hstep
    cases hnone.symm.trans hx
  have hidle : g.invocation? p = none := by simp [invocation?, hnone]
  rw [sent_idle hstep ha hidle] at hmsg
  cases hmsg

theorem Gateway.lt_of_process? {x : Process} (hn : g.Numbered) (hx : g.process? p = some x) :
    p < g.nextProcess := by
  refine Nat.not_le.mp fun hge => ?_
  cases (hn p hge).symm.trans hx

theorem Gateway.heading_listPages (hn : g.Numbered) : Heading method params g.nextProcess []
    (g.listPages sessionId method params client).2 := by
  intro y hy
  rw [process?_listPages hn] at hy
  cases hy
  exact ⟨_, rfl, rfl, rfl, fun _ => rfl, fun c hc => ⟨.start, by cases hc; rfl⟩⟩

theorem Run.asks (h₀ : g₀.IsNew) (hr : Run g₀ (before ++ b :: (ms ++ m :: after)) g)
    (hb : b.act = .listPages sessionId method params client)
    (hmsg : msg ∈ m.sent b.before.nextProcess r) : ∃ id, msg =
      .request id method (withCursor params (cursorOf (yieldedIn ms b.before.nextProcess))) := by
  obtain ⟨hrun, hbstep, hrest⟩ := hr.split rfl
  obtain ⟨hmid, hmstep, -⟩ := hrest.split rfl
  have hnb := hrun.numbered h₀.numbered
  have hbegun := hrun.snoc hbstep
  have hstart : b.after = (b.before.listPages sessionId method params client).2 := by
    rw [hb] at hbstep
    exact (Option.some.inj hbstep).symm
  have hn := hbegun.numbered h₀.numbered
  have hlt := lt_of_process? hn (hstart ▸ process?_listPages hnb)
  have hheading := hmid.heading hn hlt (hstart ▸ heading_listPages hnb)
  obtain ⟨x, hx⟩ := process?_of_sent hmstep hmsg
  obtain ⟨w, rfl, hheads⟩ := hheading x hx
  obtain ⟨call, h, d, hcall, hstage, rfl⟩ := Moment.sent_of_walk (walkOf?_eq hx) hmstep hmsg
  have hsent := (hbegun.append hmid).sent h₀ _ _ call hx hcall
  rw [Call.Sent, hstage] at hsent
  obtain ⟨stage, rfl⟩ := hheads.call call hcall
  refine ⟨h.id, hsent.trans ?_⟩
  change Message.request h.id w.method (withCursor w.params w.cursor) = _
  rw [hheads.method, hheads.params, hheads.cursor (by rw [hcall]; rfl)]

/-- After a page that leads on with a cursor a walk asks with this cursor exactly if its params can
hold one. Else it sends the params that it has sent for the first page. -/
theorem cursor_carried_iff (h₀ : g₀.IsNew) (hr : Run g₀ (before ++ b :: (ms ++ m :: after)) g)
    (hb : b.act = .listPages sessionId method params client)
    (hmsg : msg ∈ m.sent b.before.nextProcess r)
    (hlast : (yieldedIn ms b.before.nextProcess).getLast? = some page)
    (hpage : page.HasPage v) (hcursor : nextCursor? v = some c) :
    (msg.params.bind (·.get? "cursor") = some (.string c) ↔ HoldsCursor params) ∧
      (¬ HoldsCursor params → msg.method = some method ∧ msg.params = params) := by
  obtain ⟨id, rfl⟩ := hr.asks h₀ hb hmsg
  have hc : cursorOf (yieldedIn ms b.before.nextProcess) = some c := by
    rw [cursorOf, hlast, Option.bind_some, hpage.2.1, Option.bind_some, hcursor]
  rw [hc]
  exact ⟨get?_withCursor, fun h => ⟨rfl, withCursor_of_not_holds h⟩⟩

end Run

def Act.listingArray : List Act :=
  [.openSession ["a"] "owner" .client {},
    .listPages "a" "tools/list" (some (.array [])) {}, .control 0, .control 0,
    .resolve 0 { id := some (.number 1), result := some (.ofFields [("nextCursor", .string "c")]) },
    .control 0, .control 0, .control 0, .control 0]

theorem cursor_carried_iff_array : ∃ (before ms after : List Moment) (b m : Moment) (g : Gateway)
    (msg page : Message) (v : Value),
    Run (Gateway.new {} []) (before ++ b :: (ms ++ m :: after)) g ∧
    b.act = .listPages "a" "tools/list" (some (.array [])) {} ∧
    msg ∈ m.sent b.before.nextProcess 0 ∧
    (yieldedIn ms b.before.nextProcess).getLast? = some page ∧ page.HasPage v ∧
    nextCursor? v = some "c" ∧ msg.params = some (.array []) ∧
    msg.params.bind (·.get? "cursor") ≠ some (.string "c") := by
  obtain ⟨ms, g, hr, hacts, h⟩ := Run.exists_of_replay Act.listingArray (Gateway.new {} [])
    (fun ms _ => (ms[1]?.any fun b => b.before.nextProcess = 0) ∧
      ((ms.drop 2)[6]?.any fun m => (m.sent 0 0).length = 1) ∧
      ((yieldedIn ((ms.drop 2).take 6) 0).getLast?.any fun page =>
        page.error = none ∧ page.result = some (.ofFields [("nextCursor", .string "c")])))
    (by decide +kernel)
  obtain ⟨hb, hm, hpage⟩ := of_decide_eq_true h
  obtain ⟨b, hb, hp⟩ := (Option.any_eq_true ..).mp hb
  obtain ⟨m, hm, hlength⟩ := (Option.any_eq_true ..).mp hm
  obtain ⟨page, hlast, hpage⟩ := (Option.any_eq_true ..).mp hpage
  obtain ⟨msg, hsent⟩ := List.length_eq_one_iff.mp (of_decide_eq_true hlength)
  obtain ⟨herror, hresult⟩ := of_decide_eq_true hpage
  have hp : b.before.nextProcess = 0 := of_decide_eq_true hp
  have hact : b.act = .listPages "a" "tools/list" (some (.array [])) {} :=
    (Option.some.inj (Moment.act_of_acts hacts hb)).symm
  have hmsg : msg ∈ m.sent b.before.nextProcess 0 := by simp [hp, hsent]
  have hhas : page.HasPage (.ofFields [("nextCursor", .string "c")]) :=
    ⟨herror, hresult, by simp [Value.ofFields]⟩
  have hcursor : nextCursor? (.ofFields [("nextCursor", .string "c")]) = some "c" := by decide
  have hholds : ¬ HoldsCursor (some (.array [])) := by simp [HoldsCursor]
  rw [← take_append_cons_drop hb, ← take_append_cons_drop hm] at hr
  rw [← hp] at hlast
  obtain ⟨hiff, hsame⟩ := cursor_carried_iff ⟨{}, [], 0, rfl⟩ hr hact hmsg hlast hhas hcursor
  exact ⟨_, _, _, b, m, g, msg, page, _, hr, hact, hmsg, hlast, hhas, hcursor, (hsame hholds).2,
    fun heq => hholds (hiff.mp heq)⟩

end AgentGateway
