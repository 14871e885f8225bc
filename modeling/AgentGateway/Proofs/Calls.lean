import AgentGateway.Proofs.Board

namespace AgentGateway

open Function (update)

namespace Board

inductive Plied (p : ProcessId) (b : Board) : Board → Prop
  | carried {line : SessionRef → Option Session} :
      (∀ r, Gateway.CarriedTo (b.line r) (line r)) → Plied p b { b with line }
  | asked {r : SessionRef} {s s' : Session} {method : String} :
      b.handle p = none → b.line r = some s →
      s.takeRequestId.2.register ⟨s.takeRequestId.1, method, b.nextTicket⟩ = .ok s' →
      Plied p b { (b.issue (some p)).setLine r s' with
        handle := update b.handle p (some ⟨r, s.takeRequestId.1, b.nextTicket⟩) }
  | dropped {line : SessionRef → Option Session} {h : Handle} :
      (∀ r, Gateway.CarriedTo (b.line r) (line r)) → b.handle p = some h →
      Plied p b { dropHandle h { b with line } with handle := update b.handle p none }

end Board

namespace Gateway

open Board (Plied)

variable {g g' g₁ : Gateway} {p q : ProcessId} {r : SessionRef} {s s' : Session}
  {H : ProcessId → Option Handle} {a : Act} {x y : Process}

theorem held?_eq (hx : g.process? p = some x) : g.held? p = x.handle? := by simp [held?, hx]

theorem held?_of_inner (h : g'.inner = g.inner) : g'.held? p = g.held? p := by
  rw [held?, held?, process?_of_inner h]

theorem Spares.held? {o : Option ProcessId} (h : Spares o g g') (hq : o ≠ some q) :
    g'.held? q = g.held? q := by
  cases hx : g.process? q with
  | some x => rw [held?_eq hx, held?_eq (h.others q x hq hx)]
  | none =>
      cases hx' : g'.process? q with
      | some x => rw [held?_eq hx', (h.fresh q x hx hx').2 hq, Gateway.held?, hx]; rfl
      | none => rw [Gateway.held?, Gateway.held?, hx, hx']

theorem board_update (h : Spares (some p) g g') :
    g'.board = g'.boardWith (update (fun q => g.held? q) p (g'.held? p)) := by
  rw [board]
  congr 1
  funext q
  rw [Function.update_apply]
  split
  · rename_i hq
    rw [hq]
  · rename_i hq
    exact h.held? fun heq => hq (Option.some.inj heq).symm

theorem board_same {o : Option ProcessId} (h : Spares o g g')
    (hp : ∀ p, o = some p → g'.held? p = g.held? p) :
    g'.board = g'.boardWith fun q => g.held? q := by
  rw [board]
  congr 1
  funext q
  by_cases hq : o = some q
  · exact hp q hq
  · exact h.held? hq

theorem Carried.plied (hc : Carried g g') : Plied p (g.boardWith H) (g'.boardWith H) := by
  rw [boardWith_carried hc]
  exact .carried hc.sessions

theorem plied_same : Plied p (g.boardWith H) (g.boardWith H) := (carried_of_desk rfl).plied

theorem plied_dropHandle {h : Handle} (hc : Carried g g₁) (hH : H p = some h) :
    Plied p (g.boardWith H) ((g₁.dropHandle h).boardWith (update H p none)) := by
  have hb : (g₁.dropHandle h).boardWith (update H p none) =
      { Board.dropHandle h { g.boardWith H with line := fun r => g₁.session? r } with
        handle := update (g.boardWith H).handle p none } := by
    rw [← boardWith_carried hc, ← boardWith_dropHandle]
    rfl
  rw [hb]
  exact .dropped hc.sessions hH

theorem plied_dropCall {c : Call} (hH : H p = c.handle?) :
    Plied p (g.boardWith H) ((g.dropCall p c).boardWith (update H p none)) := by
  unfold dropCall
  unfold Call.handle? at hH
  cases hs : c.stage with
  | sending h d =>
      simp only [hs] at hH
      exact plied_dropHandle (carried_abandon.of_desk desk_clearTimer) hH
  | waiting h deadline =>
      simp only [hs] at hH
      exact plied_dropHandle (carried_of_desk desk_clearTimer) hH
  | start | done result =>
      simp only [hs] at hH
      dsimp only
      rw [← hH, Function.update_eq_self]
      exact plied_same

theorem plied_beginCall {c : Call} (hH : H p = none) :
    Plied p (g.boardWith H) ((g.beginCall p c).2.boardWith
      (update H p (Call.handle? { c with stage := (g.beginCall p c).1 }))) := by
  have hsame : update H p none = H := by rw [← hH, Function.update_eq_self]
  unfold beginCall
  cases hget : g.get c.sessionId with
  | error e =>
      dsimp only [Call.handle?]
      rw [hsame]
      exact plied_same
  | ok x =>
      obtain ⟨r, s⟩ := x
      have hs := session?_of_get hget
      dsimp only
      cases hreg : s.takeRequestId.2.register
          ⟨s.takeRequestId.1, c.method, (g.takeTicket (some p)).1⟩ with
      | error e =>
          dsimp only [Call.handle?]
          rw [hsame]
          exact (carried_setSession hs Session.carries_takeRequestId).plied
      | ok s' =>
          dsimp only [Call.handle?]
          have hs' : (g.takeTicket (some p)).2.session? r = some s := hs
          have hb : ((g.takeTicket (some p)).2.setSession r s').boardWith
              (update H p (some ⟨r, s.takeRequestId.1, (g.takeTicket (some p)).1⟩)) =
              { ((g.boardWith H).issue (some p)).setLine r s' with
                handle := update (g.boardWith H).handle p
                  (some ⟨r, s.takeRequestId.1, (g.boardWith H).nextTicket⟩) } := by
            rw [← boardWith_takeTicket, ← boardWith_setSession hs']
            rfl
          rw [hb]
          exact .asked hH hs hreg

theorem plied_call? {c c' : Call} (hH : H p = c.handle?) (h : g.call? p c = some (c', g₁)) :
    Plied p (g.boardWith H) (g₁.boardWith (update H p c'.handle?)) := by
  unfold call? at h
  cases hs : c.stage with
  | start =>
      simp only [hs] at h
      have hnone : H p = none := by rw [hH, Call.handle?, hs]
      cases h
      exact plied_beginCall hnone
  | sending t d =>
      have hsome : H p = some t := by rw [hH, Call.handle?, hs]
      have hsame : update H p (some t) = H := by rw [← hsome, Function.update_eq_self]
      simp only [hs, Option.map_eq_some_iff, sendCall] at h
      obtain ⟨⟨stage, g₂⟩, hsend, heq⟩ := h
      cases heq
      have hd : Carried g (g.deliver p t.session d).2 := carried_deliver
      split at hsend
      · rename_i hdel
        rw [hdel] at hd
        cases hsend
        dsimp only [Call.handle?]
        rw [hsame]
        cases c.timeout with
        | none => exact hd.plied
        | some t => exact (hd.of_desk desk_setTimer).plied
      · rename_i hdel
        rw [hdel] at hd
        split at hsend <;> cases hsend
        dsimp only [Call.handle?]
        rw [hsame]
        exact hd.plied
      · rename_i g₃ hdel
        rw [hdel] at hd
        cases hsend
        exact plied_dropHandle (hd.of_desk desk_clearTimer) hsome
  | waiting t deadline =>
      have hsome : H p = some t := by rw [hH, Call.handle?, hs]
      have hend : Plied p (g.boardWith H)
          (((g.clearTimer p).dropHandle t).boardWith (update H p none)) :=
        plied_dropHandle (carried_of_desk desk_clearTimer) hsome
      simp only [hs, Option.map_eq_some_iff, awaitCall] at h
      obtain ⟨⟨stage, g₂⟩, hwait, heq⟩ := h
      cases heq
      split at hwait
      · cases hwait
        exact hend
      · split at hwait <;> cases hwait
        exact hend
      · cases hwait
        exact hend
  | done result => simp [hs] at h

theorem handle?_follow {w : PageWalk} {result : Except CallError Message} :
    (Process.pages (w.follow result)).handle? = none := by
  unfold PageWalk.follow
  split
  · rfl
  · split
    · rfl
    · split
      · unfold PageWalk.skip
        dsimp only
        split <;> rfl
      · unfold PageWalk.skip
        dsimp only
        split <;> rfl
      · unfold PageWalk.turn
        split <;> rfl

theorem plied_walk? {w w' : PageWalk} (hH : H p = (Process.pages w).handle?)
    (h : g.walk? p w = some (w', g₁)) :
    Plied p (g.boardWith H) (g₁.boardWith (update H p (Process.pages w').handle?)) := by
  unfold walk? at h
  split at h
  · cases h
  · rename_i c hc
    have hHc : H p = c.handle? := by rw [hH, Process.handle?, Process.call?, hc]; rfl
    split at h
    · cases h
      exact plied_dropCall hHc
    · split at h
      · rename_i result hdone
        cases h
        have hnone : H p = none := by rw [hHc, Call.handle?, hdone]
        rw [handle?_follow, ← hnone, Function.update_eq_self]
        exact plied_same
      · simp only [Option.map_eq_some_iff] at h
        obtain ⟨⟨c', g₂⟩, hcall, heq⟩ := h
        cases heq
        exact plied_call? hHc hcall

theorem held?_staged (hi : g₁.inner = g.inner) (hx : g.process? p = some x) :
    (g₁.setProcess p y).held? p = y.handle? := by
  rw [Gateway.held?, process?_setProcess, if_pos rfl, process?_of_inner hi, hx]
  rfl

theorem board_staged (hs : Spares (some p) g (g₁.setProcess p y))
    (hy : (g₁.setProcess p y).held? p = y.handle?) :
    (g₁.setProcess p y).board = g₁.boardWith (update (fun q => g.held? q) p y.handle?) := by
  rw [board_update hs, hy]
  exact boardWith_of_desk desk_setProcess

theorem plied_control (hn : g.Numbered) (h : g.control? p = some g') : Plied p g.board g'.board ∨
    (g.process? p).bind Process.call? = none ∧ (g'.process? p).bind Process.call? = none := by
  have hs := (simulated_control hn h).spares
  have hfree {g₁ : Gateway} {y : Process} (hy : y.call? = none) :
      ((g₁.setProcess p y).process? p).bind Process.call? = none := by
    rw [process?_setProcess, if_pos rfl]
    cases g₁.process? p with
    | none => rfl
    | some _ => exact hy
  obtain ⟨x, hx, h⟩ := Option.bind_eq_some_iff.mp h
  cases x with
  | call c =>
      obtain ⟨c', g₁, hc, rfl⟩ := of_staged h
      left
      rw [board_staged hs (held?_staged (inner_call? hc) hx)]
      exact plied_call? (held?_eq hx) hc
  | pages w =>
      obtain ⟨w', g₁, hw, rfl⟩ := of_staged h
      left
      rw [board_staged hs (held?_staged (walk?_spec hw).2 hx)]
      exact plied_walk? (held?_eq hx) hw
  | message | answer | sessionLoop | subscription | notice | sweeper =>
      obtain ⟨y, g₁, -, rfl⟩ := of_staged h
      exact .inr ⟨by rw [hx]; rfl, hfree rfl⟩

theorem carried_abandonEach (rs : List (SessionRef × Delivery)) :
    Carried g (rs.foldl (fun g (r, _) => g.abandon p r) g) := by
  induction rs generalizing g with
  | nil => exact carried_of_desk rfl
  | cons r rs ih => exact carried_abandon.trans ih

theorem carried_release {x : Process} (hx : x.handle? = none) : Carried g (g.release p x) := by
  have hcall {c : Call} (hc : c.handle? = none) : Carried g (g.dropCall p c) := by
    unfold Call.handle? at hc
    unfold dropCall
    cases hs : c.stage with
    | sending h d => simp [hs] at hc
    | waiting h deadline => simp [hs] at hc
    | start | done result => exact carried_of_desk rfl
  unfold release
  split
  · exact hcall hx
  · exact hcall hx
  · exact carried_abandonEach _
  · exact carried_abandon
  · exact carried_abandon
  · exact carried_abandon
  · rename_i i
    cases i.subscriber with
    | none => exact carried_of_desk rfl
    | some s => exact carried_abandon
  · exact carried_of_desk rfl

theorem release_pages {w : PageWalk} {c : Call} (hc : w.call = some c) :
    g.release p (.pages w) = g.dropCall p c := by
  obtain ⟨⟩ := w
  dsimp only at hc
  subst hc
  rfl

theorem plied_release {x : Process} (hH : H p = x.handle?) :
    Plied p (g.boardWith H) ((g.release p x).boardWith (update H p none)) := by
  have hfree (hx : x.handle? = none) :
      Plied p (g.boardWith H) ((g.release p x).boardWith (update H p none)) := by
    rw [← hx, ← hH, Function.update_eq_self]
    exact (carried_release hx).plied
  cases x with
  | call c => exact plied_dropCall hH
  | pages w =>
      cases hc : w.call with
      | none => exact hfree (by rw [Process.handle?, Process.call?, hc]; rfl)
      | some c =>
          have hHc : H p = c.handle? := by rw [hH, Process.handle?, Process.call?, hc]; rfl
          rw [release_pages hc]
          exact plied_dropCall hHc
  | _ => exact hfree rfl

theorem plied_abort (hn : g.Numbered) : Plied p g.board (g.abort p).board := by
  have hs := (simulated_abort (p := p) hn).spares
  cases hx : g.process? p with
  | none =>
      have hsame : g.abort p = g := by rw [abort, hx]
      rw [hsame]
      exact plied_same
  | some x =>
      have hab : g.abort p = (g.release p x).removeProcess p := by rw [abort, hx]
      have hnone : (g.abort p).held? p = none := by
        rw [hab, Gateway.held?, process?_removeProcess, if_pos rfl]
        rfl
      have hb : (g.abort p).board =
          (g.release p x).boardWith (update (fun q => g.held? q) p none) := by
        rw [board_update hs, hnone, hab]
        exact boardWith_of_desk desk_removeProcess
      rw [hb]
      exact plied_release (held?_eq hx)

theorem handle?_withInvocation {i : Invocation} : (x.withInvocation i).handle? = x.handle? := by
  unfold Process.withInvocation
  split
  · rfl
  · rfl
  · split <;> rfl
  · rfl
  · rfl

theorem held?_setInvocation {i : Invocation} : (g.setInvocation p i).held? q = g.held? q := by
  rw [held?, held?, process?_setInvocation]
  split
  · rename_i h
    rw [h]
    cases g.process? p with
    | none => rfl
    | some x => exact handle?_withInvocation
  · rfl

theorem held?_setProcess (hx : g.process? p = some x) (hy : y.handle? = x.handle?) :
    (g.setProcess p y).held? p = g.held? p := by
  rw [Gateway.held?, process?_setProcess, if_pos rfl, held?_eq hx, hx]
  exact hy

theorem handle?_settle {poll : ToolPoll} : (x.settle poll).handle? = x.handle? := by
  unfold Process.settle
  split
  · rfl
  · rfl
  · split <;> rfl
  · rfl

theorem held?_setInbound {l : SessionLoop} {c : Channel Message}
    (hl : g.process? p = some (.sessionLoop l)) : (g.setInbound p l c).held? p = g.held? p := by
  have hset : (g.setProcess p (.sessionLoop { l with inbound := c })).held? p = g.held? p :=
    held?_setProcess hl rfl
  unfold setInbound
  dsimp only
  split
  · exact (held?_of_inner inner_wake).trans hset
  · exact hset

theorem carried_setInbound {l : SessionLoop} {c : Channel Message} :
    Carried g (g.setInbound p l c) := by
  unfold setInbound
  dsimp only
  split
  · exact carried_of_desk (desk_wake.trans desk_setProcess)
  · exact carried_of_desk desk_setProcess

theorem forward_spec {i : Invocation} {s : Subscriber} {d : Delivery}
    (h : g.forward p i s d = some g') :
    ∃ g₁ j, g' = g₁.setInvocation p j ∧ Carried g g₁ ∧ ∀ q, g₁.process? q = g.process? q := by
  have hd : Carried g (g.deliver p s.session d).2 := carried_deliver
  have hp (q : ProcessId) : (g.deliver p s.session d).2.process? q = g.process? q :=
    process?_of_inner inner_deliver
  unfold forward at h
  generalize g.deliver p s.session d = x at h hd hp
  obtain ⟨state, g₁⟩ := x
  cases state with
  | sent => exact ⟨g₁, _, (Option.some.inj h).symm, hd, hp⟩
  | pending d' =>
      dsimp only at h
      split at h
      · cases h
      · exact ⟨g₁, _, (Option.some.inj h).symm, hd, hp⟩
  | failed e =>
      exact ⟨g₁.signal i.token, _, (Option.some.inj h).symm, hd.of_desk desk_signal,
        fun q => process?_signal.trans (hp q)⟩

theorem desk_withStore {store : TaskStore} : { g with store }.desk = g.desk := rfl

theorem process?_withStore {store : TaskStore} : { g with store }.process? p = g.process? p := rfl

theorem consume?_spec (h : g.consume? p = some g') :
    ∃ g₁ j, g' = g₁.setInvocation p j ∧ Carried g g₁ ∧ ∀ q, g₁.process? q = g.process? q := by
  obtain ⟨i, hi, h⟩ := Option.bind_eq_some_iff.mp h
  split at h
  · cases h
  · split at h
    · exact ⟨g, _, (Option.some.inj h).symm, carried_of_desk rfl, fun _ => rfl⟩
    · exact forward_spec h
  · split at h
    · refine ⟨_, _, (Option.some.inj h).symm, carried_of_desk ?_, fun q => ?_⟩
      · rw [desk_withStore]
        split
        · exact desk_wake
        · rfl
      · rw [process?_withStore]
        split
        · exact process?_of_inner inner_wake
        · rfl
    · split at h
      · exact ⟨g, _, (Option.some.inj h).symm, carried_of_desk rfl, fun _ => rfl⟩
      · cases h

theorem held?_signal {k : Token} : (g.signal k).held? q = g.held? q := by
  rw [held?, held?, process?_signal]

theorem spared_named (h : g.perform a = some g') (hp : a.process? = some p)
    (hcontrol : a ≠ .control p) (habort : a ≠ .abort p) :
    g'.held? p = g.held? p ∧ Carried g g' := by
  cases a with
  | feed =>
      cases h
      cases hp
      unfold feed
      cases hl : g.loop? p with
      | none => exact ⟨rfl, carried_of_desk rfl⟩
      | some l =>
          dsimp only
          split
          · exact ⟨held?_setInbound (process?_of_loop? hl), carried_setInbound⟩
          · exact ⟨rfl, carried_of_desk rfl⟩
  | hangUp =>
      cases h
      cases hp
      unfold hangUp
      cases hl : g.loop? p with
      | none => exact ⟨rfl, carried_of_desk rfl⟩
      | some l => exact ⟨held?_setInbound (process?_of_loop? hl), carried_setInbound⟩
  | takePages =>
      cases h
      cases hp
      unfold takePages
      cases hw : g.walkOf? p with
      | none => exact ⟨rfl, carried_of_desk rfl⟩
      | some w =>
          exact ⟨held?_setProcess (process?_of_walkOf? hw) rfl, carried_of_desk desk_setProcess⟩
  | cancelPages =>
      cases h
      unfold cancelPages
      split
      · exact ⟨rfl, carried_of_desk rfl⟩
      · exact ⟨held?_signal, carried_of_desk desk_signal⟩
  | stopSweeper =>
      cases h
      cases hp
      unfold stopSweeper
      cases g.sweeper? p with
      | none => exact ⟨rfl, carried_of_desk rfl⟩
      | some w => exact ⟨held?_signal, carried_of_desk desk_signal⟩
  | settleTool =>
      cases h
      cases hp
      refine ⟨?_, carried_of_desk desk_settleTool⟩
      rw [held?, held?, process?_settleTool, if_pos rfl]
      cases g.process? p with
      | none => rfl
      | some x => exact handle?_settle
  | produce =>
      cases hp
      obtain ⟨i, u, producer, g₁, j, -, -, hg, hd, rfl, -⟩ := produce?_spec h
      refine ⟨?_, carried_of_desk (desk_setInvocation.trans hd)⟩
      rw [held?_setInvocation, held?_of_inner hg]
  | consume =>
      cases hp
      obtain ⟨g₁, j, rfl, hc, hprocess⟩ := consume?_spec h
      refine ⟨?_, hc.of_desk desk_setInvocation⟩
      rw [held?_setInvocation, held?, held?, hprocess]
  | listen =>
      cases h
      cases hp
      unfold listen
      split
      · exact ⟨rfl, carried_of_desk rfl⟩
      · split
        · exact ⟨held?_setInvocation, carried_of_desk desk_setInvocation⟩
        · exact ⟨rfl, carried_of_desk rfl⟩
  | swapSides =>
      obtain ⟨i, -, rfl⟩ := Option.map_eq_some_iff.mp h
      exact ⟨held?_setInvocation, carried_of_desk desk_setInvocation⟩
  | abort | control =>
      cases hp
      contradiction
  | _ => cases hp

theorem held?_perform (hn : g.Numbered) (h : g.perform a = some g') (hcontrol : a ≠ .control p)
    (habort : a ≠ .abort p) : g'.held? p = g.held? p := by
  by_cases hp : a.process? = some p
  · exact (spared_named h hp hcontrol habort).1
  · exact (simulated_perform hn h).spares.held? hp

theorem plied_perform (hn : g.Numbered) (h : g.perform a = some g')
    (hne : g'.held? p ≠ g.held? p) : Plied p g.board g'.board := by
  have hheld (g : Gateway) :
      g.held? p = ((g.process? p).bind Process.call?).bind Call.handle? := by
    cases hx : g.process? p <;> simp [Gateway.held?, hx, Process.handle?]
  by_cases hcontrol : a = .control p
  · subst hcontrol
    refine (plied_control hn h).resolve_right fun hnone => hne ?_
    rw [hheld, hheld, hnone.1, hnone.2]
  by_cases habort : a = .abort p
  · subst habort
    cases h
    exact plied_abort hn
  exact absurd (held?_perform hn h hcontrol habort) hne

end Gateway

end AgentGateway
