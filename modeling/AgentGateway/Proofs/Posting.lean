import AgentGateway.Proofs.Calls

namespace AgentGateway

open Function (update)

/-- That an act of the host changes what waits for responses by itself. -/
def Act.IsHosted : Act → Prop
  | .register _ _ _ | .cancelPending _ _ => True
  | _ => False

namespace Gateway

def accepted? (id : String) (m : Message) (g : Gateway) : Option (SessionRef × Message) :=
  match g.get id with
  | .error _ => none
  | .ok (r, s) =>
    match (g.validate r s m).1, m.method with
    | .ok (), none => some (r, { m with processed := true })
    | _, _ => none

def response? (p : ProcessId) (g : Gateway) : Option (SessionRef × Message) :=
  ((g.process? p).bind Process.incoming?).bind fun (id, m) => g.accepted? id m

end Gateway

def Moment.arrival? (m : Moment) : Option (SessionRef × Message) :=
  match m.act with
  | .resolve r msg => some (r, msg)
  | .control p => m.before.response? p
  | _ => none

namespace Board

def Posts (o : Option (SessionRef × Message)) (b b' : Board) : Prop :=
  ∃ es, Path b es b' ∧ es.filterMap Errand.arrival? = o.toList ∧ .hosted ∉ es

variable {b b₁ b₂ : Board} {o : Option (SessionRef × Message)} {p : ProcessId}

theorem Posts.refl (b : Board) : Posts none b b := ⟨[], .nil, rfl, by simp⟩

theorem Posts.quiet (h : Step b .quiet b₁) : Posts none b b₁ := ⟨_, .single h, rfl, by simp⟩

theorem Posts.before (h : Posts none b b₁) (k : Posts o b₁ b₂) : Posts o b b₂ := by
  obtain ⟨es, hp, ha, hh⟩ := h
  obtain ⟨es', hp', ha', hh'⟩ := k
  refine ⟨es ++ es', hp.append hp', ?_, by simp [hh, hh']⟩
  rw [List.filterMap_append, ha, ha']
  rfl

theorem Plied.posts (h : Plied p b b₁) : Posts none b b₁ := by
  cases h with
  | carried hc => exact .quiet (.carried hc)
  | asked hp hs hreg => exact .quiet (.asked hp hs hreg)
  | @dropped line h hc hp =>
      have hdropped : Step { b with line } .quiet
          { dropHandle h { b with line } with handle := update b.handle p none } := .dropped hp
      exact (Posts.quiet (.carried hc)).before (.quiet hdropped)

end Board

namespace Gateway

open Board (Plied Posts)

variable {g g' g₁ : Gateway} {p q : ProcessId} {r : SessionRef} {s s' : Session}
  {H : ProcessId → Option Handle} {a : Act} {x y : Process}

def Posted (a : Act) (g g' : Gateway) : Prop :=
  ∃ es, Board.Path g.board es g'.board ∧
    es.filterMap Errand.arrival? = (Moment.arrival? ⟨g, a, g'⟩).toList ∧
    (¬ a.IsHosted → .hosted ∉ es)

theorem Carried.posts (h : Carried g g') : Posts none (g.boardWith H) (g'.boardWith H) :=
  .quiet h.step

theorem posts_of_desk (h : g'.desk = g.desk) : Posts none (g.boardWith H) (g'.boardWith H) := by
  rw [boardWith_of_desk h]
  exact .refl _

theorem posted_quiet (hs : Spares a.process? g g')
    (hp : ∀ p, a.process? = some p → g'.held? p = g.held? p)
    (ha : Moment.arrival? ⟨g, a, g'⟩ = none)
    (h : Posts none (g.boardWith fun q => g.held? q) (g'.boardWith fun q => g.held? q)) :
    Posted a g g' := by
  obtain ⟨es, hpath, harr, hh⟩ := h
  rw [← board_same hs hp] at hpath
  exact ⟨es, hpath, by rw [harr, ha], fun _ => hh⟩

theorem posted_inner (hn : g.Numbered) (hi : g'.inner = g.inner)
    (ha : Moment.arrival? ⟨g, a, g'⟩ = none)
    (h : Posts none (g.boardWith fun q => g.held? q) (g'.boardWith fun q => g.held? q)) :
    Posted a g g' :=
  posted_quiet (spares_of_inner hn hi) (fun _ _ => held?_of_inner hi) ha h

theorem posts_shut : Posts none (g.boardWith H) ((g.shut r).2.boardWith H) := by
  unfold shut
  cases hs : g.session? r with
  | none => exact .refl _
  | some s =>
      cases hc : s.close with
      | none =>
          simp only [Option.bind_some, hc]
          exact .refl _
      | some x =>
          obtain ⟨ts, s'⟩ := x
          simp only [Option.bind_some, hc]
          rw [boardWith_settleAll, boardWith_setSession hs]
          have hline : (g.boardWith H).line r = some s := hs
          exact .quiet (.closed hline hc)

theorem posts_retire {reason : CloseReason} :
    Posts none (g.boardWith H) ((g.retire r reason).boardWith H) := by
  have hshut := posts_shut (g := { g with live := g.live.filter (· ≠ r) }) (r := r) (H := H)
  exact hshut

theorem posts_retireEach {reason : CloseReason} (rs : List SessionRef) (g : Gateway) :
    Posts none (g.boardWith H) ((rs.foldl (fun g r => g.retire r reason) g).boardWith H) := by
  induction rs generalizing g with
  | nil => exact .refl _
  | cons r rs ih => exact posts_retire.before (ih _)

theorem posts_closeSession {id : String} {reason : CloseReason} :
    Posts none (g.boardWith H) ((g.closeSession id reason).2.boardWith H) := by
  unfold closeSession
  split
  · exact .refl _
  · exact posts_retire

theorem posts_disconnectEach (rs : List SessionRef) (g : Gateway) :
    Posts none (g.boardWith H) ((rs.foldl disconnect g).boardWith H) := by
  induction rs generalizing g with
  | nil => exact .refl _
  | cons r rs ih =>
      refine Posts.before ?_ (ih _)
      unfold disconnect
      split
      · exact .refl _
      · exact posts_closeSession

theorem posts_notify? {n n' : Notice} (h : g.notify? p n = some (n', g₁)) :
    Posts none (g.boardWith H) (g₁.boardWith H) := by
  unfold notify? at h
  split at h
  · cases h
    exact .refl _
  · cases h
    exact posts_disconnectEach _ _
  · rename_i pending _ _
    have ht : Carried g (g.tellEach p pending n).2.2 := carried_tellEach _ _
    dsimp only at h
    split at h <;> cases h
    exact ht.posts
  · cases h

theorem posts_sweep? {w w' : Sweeper} (h : g.sweep? p w = some (w', g₁)) :
    Posts none (g.boardWith H) (g₁.boardWith H) := by
  unfold sweep? at h
  split at h
  · cases h
  · split at h
    · cases h
      exact posts_of_desk desk_clearTimer
    · split at h
      · cases h
        exact posts_of_desk desk_setTimer
      · split at h <;> cases h
        exact posts_retireEach _ _

theorem posts_subscription? {u u' : Subscription} (h : g.subscription? p u = some (u', g₁)) :
    Posts none (g.boardWith H) (g₁.boardWith H) := by
  cases u with
  | running i =>
      simp only [subscription?, Option.map_eq_some_iff] at h
      obtain ⟨e, he, heq⟩ := h
      split at heq <;> cases heq <;> exact .refl _
  | closing r d =>
      have hd : Carried g (g.deliver p r d).2 := carried_deliver
      simp only [subscription?] at h
      split at h
      · rename_i heq
        split at h <;> cases h
        rw [heq] at hd
        exact hd.posts
      · rename_i heq
        cases h
        rw [heq] at hd
        exact hd.posts
  | done => cases h

theorem posts_handle {id : String} {m : Message} :
    Posts (g.accepted? id m) (g.boardWith H) ((g.handle id m).2.boardWith H) := by
  unfold accepted? handle
  cases hget : g.get id with
  | error e => exact .refl _
  | ok x =>
      obtain ⟨r, s⟩ := x
      have hv : Carried g (g.validate r s m).2 := carried_validate (session?_of_get hget)
      dsimp only
      generalize g.validate r s m = x at hv
      obtain ⟨result, g₁⟩ := x
      cases result with
      | error rejection => exact hv.posts
      | ok u =>
          dsimp only
          unfold handleValid
          cases m.method with
          | none =>
              dsimp only
              rw [boardWith_resolve]
              refine hv.posts.before ?_
              exact ⟨[.arrived r _], .single (.resolved r _), rfl, by simp⟩
          | some name =>
              cases m.id with
              | none => exact (hv.trans carried_handleNotification).posts
              | some request => exact (hv.trans carried_handleRequest).posts

theorem posts_handle? {h h' : Handling} (hstep : g.handle? h = some (h', g₁)) :
    Posts ((Process.message h).incoming?.bind fun (id, m) => g.accepted? id m)
      (g.boardWith H) (g₁.boardWith H) := by
  cases h with
  | start id m =>
      obtain rfl : _ = g₁ := congrArg Prod.snd (Option.some.inj hstep)
      exact posts_handle
  | running i request n =>
      simp only [handle?, Option.map_eq_some_iff] at hstep
      obtain ⟨e, he, heq⟩ := hstep
      cases heq
      exact .refl _
  | calling request poll =>
      simp only [handle?, Option.map_eq_some_iff] at hstep
      obtain ⟨reply, -, heq⟩ := hstep
      cases heq
      exact .refl _
  | done reply => cases hstep

theorem posts_answer? {id : String} {b b' : Answering} (hstep : g.answer? p id b = some (b', g₁)) :
    Posts ((Process.answer id b).incoming?.bind fun (id, m) => g.accepted? id m)
      (g.boardWith H) (g₁.boardWith H) := by
  unfold answer? at hstep
  split at hstep
  · cases hstep
    exact .refl _
  · cases hstep
    exact .refl _
  · rename_i h _ _
    simp only [Option.map_eq_some_iff] at hstep
    obtain ⟨⟨h', g''⟩, hh, heq⟩ := hstep
    cases heq
    have hposts := posts_handle? (H := H) hh
    cases h <;> exact hposts
  · split at hstep
    all_goals
      cases hstep
      exact .refl _
  · rename_i r d
    have hd : Carried g (g.deliver p r d).2 := carried_deliver
    split at hstep
    · rename_i heq
      cases hstep
      rw [heq] at hd
      exact hd.posts
    · rename_i heq
      split at hstep <;> cases hstep
      rw [heq] at hd
      exact hd.posts
    · rename_i heq
      cases hstep
      rw [heq] at hd
      exact hd.posts
  · cases hstep

theorem posts_advanceLoop? {l l' : SessionLoop} (hstep : g.advanceLoop? p l = some (l', g₁)) :
    Posts ((Process.sessionLoop l).incoming?.bind fun (id, m) => g.accepted? id m)
      (g.boardWith H) (g₁.boardWith H) := by
  obtain ⟨id, inbound, stage⟩ := l
  cases stage with
  | receiving =>
      simp only [advanceLoop?] at hstep
      split at hstep
      · split at hstep
        · cases hstep
          exact posts_of_desk desk_spawn
        · cases hstep
          exact .refl _
      · split at hstep <;> cases hstep
        exact .refl _
  | answering b =>
      cases b with
      | done writable =>
          cases hstep
          exact .refl _
      | _ =>
          simp only [advanceLoop?, Option.map_eq_some_iff] at hstep
          obtain ⟨⟨b', g''⟩, hb, heq⟩ := hstep
          cases heq
          have hposts := posts_answer? (H := H) hb
          first
            | exact hposts
            | (rename_i h; cases h <;> exact hposts)
  | stopped => cases hstep

theorem posted_staged (hs : Spares (some p) g (g₁.setProcess p y)) (hx : g.process? p = some x)
    (hy : (g₁.setProcess p y).held? p = y.handle?)
    (h : Posts (x.incoming?.bind fun (id, m) => g.accepted? id m)
      (g.boardWith fun q => g.held? q)
      (g₁.boardWith (update (fun q => g.held? q) p y.handle?))) :
    Posted (.control p) g (g₁.setProcess p y) := by
  obtain ⟨es, hpath, harr, hh⟩ := h
  rw [← board_staged hs hy] at hpath
  refine ⟨es, hpath, ?_, fun _ => hh⟩
  simp only [harr, Moment.arrival?, response?, hx, Option.bind_some]

theorem posted_free (hs : Spares (some p) g (g₁.setProcess p y)) (hx : g.process? p = some x)
    (hxh : x.handle? = none) (hyh : y.handle? = none)
    (h : Posts (x.incoming?.bind fun (id, m) => g.accepted? id m)
      (g.boardWith fun q => g.held? q) (g₁.boardWith fun q => g.held? q)) :
    Posted (.control p) g (g₁.setProcess p y) := by
  refine posted_staged hs hx ?_ ?_
  · rw [Gateway.held?, process?_setProcess, if_pos rfl, hyh]
    cases g₁.process? p <;> simp [hyh]
  · have hnone : g.held? p = none := (held?_eq hx).trans hxh
    have hsame : update (fun q => g.held? q) p none = fun q => g.held? q := by
      rw [← hnone]
      exact Function.update_eq_self ..
    rw [hyh, hsame]
    exact h

theorem posted_control (hn : g.Numbered) (h : g.control? p = some g') :
    Posted (.control p) g g' := by
  have hs := (simulated_control hn h).spares
  obtain ⟨x, hx, h⟩ := Option.bind_eq_some_iff.mp h
  cases x with
  | message m =>
      obtain ⟨m', g₁, hm, rfl⟩ := of_staged h
      exact posted_free hs hx rfl rfl (posts_handle? hm)
  | answer id b =>
      obtain ⟨b', g₁, hb, rfl⟩ := of_staged h
      exact posted_free hs hx rfl rfl (posts_answer? hb)
  | sessionLoop l =>
      obtain ⟨l', g₁, hl, rfl⟩ := of_staged h
      exact posted_free hs hx rfl rfl (posts_advanceLoop? hl)
  | subscription u =>
      obtain ⟨u', g₁, hu, rfl⟩ := of_staged h
      exact posted_free hs hx rfl rfl (posts_subscription? hu)
  | call c =>
      obtain ⟨c', g₁, hc, rfl⟩ := of_staged h
      exact posted_staged hs hx (held?_staged (inner_call? hc) hx) (plied_call? (held?_eq hx) hc).posts
  | pages w =>
      obtain ⟨w', g₁, hw, rfl⟩ := of_staged h
      exact posted_staged hs hx (held?_staged (walk?_spec hw).2 hx) (plied_walk? (held?_eq hx) hw).posts
  | notice n =>
      obtain ⟨n', g₁, hn', rfl⟩ := of_staged h
      exact posted_free hs hx rfl rfl (posts_notify? hn')
  | sweeper w =>
      obtain ⟨w', g₁, hw, rfl⟩ := of_staged h
      exact posted_free hs hx rfl rfl (posts_sweep? hw)

theorem posted_abort (hn : g.Numbered) : Posted (.abort p) g (g.abort p) := by
  obtain ⟨es, hpath, harr, hh⟩ := (plied_abort (p := p) hn).posts
  exact ⟨es, hpath, harr, fun _ => hh⟩

theorem posted_spawn (hn : g.Numbered) (hp : a.process? = none) (hx : x.handle? = none)
    (ha : Moment.arrival? ⟨g, a, (g.spawn x).2⟩ = none) : Posted a g (g.spawn x).2 :=
  posted_quiet (hp ▸ spares_spawn hn hx) (by simp [hp]) ha (posts_of_desk desk_spawn)

theorem posted_kept (hs : Spares a.process? g g') (hp : a.process? = some p)
    (hk : g'.held? p = g.held? p) (ha : Moment.arrival? ⟨g, a, g'⟩ = none) (hc : Carried g g') :
    Posted a g g' := by
  refine posted_quiet hs (fun q hq => ?_) ha hc.posts
  obtain rfl := Option.some.inj (hp.symm.trans hq)
  exact hk

theorem posted_carried (hn : g.Numbered) (hi : g'.inner = g.inner)
    (ha : Moment.arrival? ⟨g, a, g'⟩ = none) (hc : Carried g g') : Posted a g g' :=
  posted_inner hn hi ha hc.posts

theorem board_register {id : RequestId} {method : String}
    (h : g.perform (.register r id method) = some g') : ∃ s s', g.session? r = some s ∧
      s.register ⟨id, method, g.nextTicket⟩ = .ok s' ∧
      g'.board = (g.board.issue none).setLine r s' := by
  obtain ⟨s, hs, h⟩ := Option.bind_eq_some_iff.mp h
  cases hr : g.register r s id method with
  | error e => simp [hr, Except.map, Except.toOption] at h
  | ok y =>
      obtain ⟨s', hreg, heq⟩ := bind_eq_ok.mp hr
      cases heq
      rw [hr] at h
      obtain rfl := Option.some.inj h
      have hs' : (g.takeTicket none).2.session? r = some s := hs
      refine ⟨s, s', hs, hreg, ?_⟩
      rw [board, board, ← boardWith_takeTicket, ← boardWith_setSession hs']
      rfl

theorem posted_register {id : RequestId} {method : String}
    (h : g.perform (.register r id method) = some g') : Posted (.register r id method) g g' := by
  obtain ⟨s, s', hs, hreg, hb⟩ := board_register h
  have hstep : Board.Step g.board .hosted ((g.board.issue none).setLine r s') :=
    .registered hs hreg
  rw [← hb] at hstep
  exact ⟨[.hosted], .single hstep, rfl, fun h => (h trivial).elim⟩

theorem posted_perform (hn : g.Numbered) (h : g.perform a = some g') : Posted a g g' := by
  have hs := (simulated_perform hn h).spares
  cases a with
  | openSession =>
      simp only [perform, Option.map_eq_some_iff] at h
      obtain ⟨⟨r, g₁⟩, h, rfl⟩ := h
      refine posted_quiet hs (by simp [Act.process?]) rfl (carried_openSession h).posts
  | closeSession id reason =>
      cases h
      exact posted_inner hn inner_closeSession rfl posts_closeSession
  | shutdown =>
      cases h
      exact posted_inner hn inner_shutdown rfl (posts_retireEach _ _)
  | evictIdle =>
      cases h
      exact posted_inner hn inner_evictIdle rfl (posts_retireEach _ _)
  | submit | startLoop | request | notify =>
      cases h
      exact posted_spawn hn rfl rfl rfl
  | listPages | startSweeper =>
      cases h
      exact posted_quiet hs (by simp [Act.process?]) rfl (posts_of_desk desk_spawn)
  | receive r =>
      simp only [perform, Option.map_eq_some_iff] at h
      obtain ⟨⟨m, g₁⟩, h, rfl⟩ := h
      refine posted_quiet hs (by simp [Act.process?]) rfl (carried_receive? h).posts
  | dropReceiver =>
      cases h
      exact posted_carried hn inner_dropReceiver rfl carried_dropReceiver
  | abort p =>
      cases h
      exact posted_abort hn
  | register => exact posted_register h
  | cancelPending r id =>
      cases h
      have hstep : Board.Step g.board .hosted (g.cancelPending r id).2.board := by
        rw [board_same hs (by simp [Act.process?]), boardWith_cancelPending]
        exact .withdrawn r id
      exact ⟨[.hosted], .single hstep, rfl, fun h => (h trivial).elim⟩
  | resolve r m =>
      cases h
      have hstep : Board.Step g.board (.arrived r m) (g.resolve r m).2.board := by
        rw [board_same hs (by simp [Act.process?]), boardWith_resolve]
        exact .resolved r m
      exact ⟨[.arrived r m], .single hstep, rfl, by simp⟩
  | takeRequestId =>
      exact posted_carried hn (inner_amend h) rfl
        (carried_amend (fun _ => Session.carries_takeRequestId) h)
  | offer =>
      cases h
      exact posted_carried hn inner_offer rfl carried_offer
  | shut =>
      cases h
      exact posted_inner hn inner_shut rfl posts_shut
  | transition r target =>
      refine posted_carried hn (inner_amend h) rfl (carried_amend (fun s => ?_) h)
      cases ht : s.transition target with
      | error e => exact .refl s
      | ok s' => exact Session.carries_transition ht
  | touch =>
      exact posted_carried hn (inner_amend h) rfl
        (carried_amend (fun _ => Session.carries_touch) h)
  | setOverrides r overrides =>
      exact posted_carried hn (inner_amend h) rfl
        (carried_amend (f := fun s => { s with overrides })
          (fun _ => ⟨rfl, rfl, Int.le_refl _, Nat.le_refl _, .rfl, rfl, fun h => h, fun h => h⟩) h)
  | tick | setUptime | reschedule =>
      cases h
      exact posted_inner hn rfl rfl (.refl _)
  | feed | hangUp | takePages | cancelPages | stopSweeper | settleTool | produce | consume
  | listen | swapSides =>
      obtain ⟨hk, hc⟩ := spared_named h rfl (by simp) (by simp)
      exact posted_kept hs rfl hk rfl hc
  | control p => exact posted_control hn h

end Gateway

theorem Run.boards {g₁ g : Gateway} {ms : List Moment} (hn : g₁.Numbered) (hr : Run g₁ ms g) :
    ∃ es, Board.Path g₁.board es g.board ∧
      es.filterMap Errand.arrival? = ms.filterMap Moment.arrival? ∧
      ((∀ m ∈ ms, ¬ m.act.IsHosted) → .hosted ∉ es) := by
  induction hr with
  | nil => exact ⟨[], .nil, rfl, by simp⟩
  | @snoc ms g a g' hrun hstep ih =>
      obtain ⟨es, hp, harr, hes⟩ := ih
      obtain ⟨es', hp', harr', hes'⟩ := Gateway.posted_perform (hrun.numbered hn) hstep
      refine ⟨es ++ es', hp.append hp', ?_, fun hacts => ?_⟩
      · rw [List.filterMap_append, harr, harr', filterMap_snoc]
      · have hact := hes' (hacts ⟨g, a, g'⟩ (by simp))
        simp [hes fun m hm => hacts m (by simp [hm]), hact]

end AgentGateway
