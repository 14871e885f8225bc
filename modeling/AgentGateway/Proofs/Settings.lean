import AgentGateway.Proofs.Posting

namespace AgentGateway

namespace Gateway

variable {g g' : Gateway} {p : ProcessId} {x : Process} {k : Token} {a : Act}

theorem settings_of_inner (h : g'.inner = g.inner) : g'.settings = g.settings :=
  (congrArg Gateway.settings h :)

theorem settings_spawn : (g.spawn x).2.settings = g.settings :=
  (settings_of_inner inner_wake).trans rfl

theorem settings_signal : (g.signal k).settings = g.settings := by
  rcases signal_inner_cases (g := g) k with h | h
  · exact settings_of_inner h
  · exact (settings_of_inner h).trans rfl

theorem settings_setInbound {l : SessionLoop} {c : Channel Message} :
    (g.setInbound p l c).settings = g.settings := by
  unfold setInbound
  dsimp only
  split
  · exact (settings_of_inner inner_wake).trans rfl
  · rfl

theorem settings_worked {y : Process} (h : Worked g x y g') : g'.settings = g.settings := by
  cases h with
  | calm _ _ _ hg => exact settings_of_inner hg
  | called _ _ _ _ _ _ hg => exact (settings_of_inner hg).trans settings_spawn
  | handled _ _ _ _ hh =>
      cases hh with
      | calm hg | called hg => exact settings_of_inner hg
      | began _ hg => exact (settings_of_inner hg).trans rfl
      | subscribed _ _ hg => exact (settings_of_inner hg).trans settings_spawn
      | @cancelled _ _ _ token _ _ _ _ hg =>
          refine (settings_of_inner hg).trans ?_
          cases token with
          | none => rfl
          | some k => exact settings_signal (g := g)
  | concluded => rfl

theorem settings_consume? (h : g.consume? p = some g') : g'.settings = g.settings := by
  obtain ⟨i, -, h⟩ := Option.bind_eq_some_iff.mp h
  split at h
  · cases h
  · rename_i d _
    split at h
    · cases h
      rfl
    · rename_i peer _
      have hdeliver : (g.deliver p peer.session d).2.inner = g.inner := inner_deliver
      unfold forward at h
      split at h
      · rename_i heq
        cases h
        rw [heq] at hdeliver
        exact (settings_of_inner hdeliver :)
      · rename_i heq
        split at h <;> cases h
        rw [heq] at hdeliver
        exact (settings_of_inner hdeliver :)
      · rename_i heq
        cases h
        rw [heq] at hdeliver
        exact settings_signal.trans (settings_of_inner hdeliver :)
  · split at h
    · cases h
      have hwake : (if i.isStuck then g.wake p else g).settings = g.settings := by
        split
        · exact settings_of_inner inner_wake
        · rfl
      exact hwake
    · split at h <;> cases h
      rfl

theorem settings_perform (h : g.perform a = some g') : g'.settings = g.settings := by
  cases a with
  | openSession =>
      obtain ⟨⟨r, g₁⟩, hopen, rfl⟩ := Option.map_eq_some_iff.mp h
      obtain ⟨id, -, heq⟩ := Option.map_eq_some_iff.mp hopen
      cases heq
      rfl
  | closeSession =>
      cases h
      exact settings_of_inner inner_closeSession
  | shutdown =>
      cases h
      exact settings_of_inner inner_shutdown
  | evictIdle =>
      cases h
      exact settings_of_inner inner_evictIdle
  | submit | startLoop | request | notify =>
      cases h
      exact settings_spawn
  | listPages | startSweeper =>
      cases h
      exact settings_spawn.trans rfl
  | control p =>
      obtain ⟨x, y, g₁, -, hw, rfl⟩ := worked_control? h
      exact (settings_worked hw :)
  | feed p m =>
      cases h
      unfold feed
      split
      · rfl
      · dsimp only
        split
        · exact settings_setInbound
        · rfl
  | hangUp p =>
      cases h
      unfold hangUp
      split
      · rfl
      · exact settings_setInbound
  | receive r =>
      obtain ⟨⟨m, g₁⟩, hreceive, rfl⟩ := Option.map_eq_some_iff.mp h
      obtain ⟨s, -, hreceive⟩ := Option.bind_eq_some_iff.mp hreceive
      obtain ⟨⟨m', woken, c⟩, -, heq⟩ := Option.bind_eq_some_iff.mp hreceive
      cases heq
      exact (settings_of_inner (inner_wakeAll _)).trans rfl
  | dropReceiver =>
      cases h
      exact settings_of_inner inner_dropReceiver
  | takePages p =>
      cases h
      unfold takePages
      split <;> rfl
  | cancelPages p =>
      cases h
      unfold cancelPages
      split
      · rfl
      · exact settings_signal
  | stopSweeper p =>
      cases h
      unfold stopSweeper
      cases g.sweeper? p with
      | none => rfl
      | some s => exact settings_signal (g := g)
  | settleTool p poll =>
      cases h
      unfold settleTool
      cases g.process? p with
      | none => rfl
      | some x => exact (settings_of_inner inner_wake).trans rfl
  | abort p =>
      cases h
      unfold abort
      split
      · rfl
      · exact (settings_of_inner inner_release :)
  | register r id method =>
      obtain ⟨s, -, h⟩ := Option.bind_eq_some_iff.mp h
      cases hr : g.register r s id method with
      | error e => simp [hr, Except.map, Except.toOption] at h
      | ok x =>
          rw [hr] at h
          cases h
          obtain ⟨s', -, heq⟩ := bind_eq_ok.mp hr
          cases heq
          rfl
  | cancelPending =>
      cases h
      exact settings_of_inner inner_cancelPending
  | resolve =>
      cases h
      exact settings_of_inner inner_resolve
  | offer =>
      cases h
      exact settings_of_inner inner_offer
  | shut =>
      cases h
      exact settings_of_inner inner_shut
  | takeRequestId | touch | setOverrides | transition => exact settings_of_inner (inner_amend h)
  | tick | setUptime | reschedule =>
      cases h
      rfl
  | produce p =>
      obtain ⟨i, u, producer, g₁, j, -, -, hg, -, rfl, -⟩ := produce?_spec h
      exact (settings_of_inner hg :)
  | consume p => exact settings_consume? h
  | listen p =>
      cases h
      unfold listen
      split
      · rfl
      · split <;> rfl
  | swapSides p =>
      obtain ⟨i, -, rfl⟩ := Option.map_eq_some_iff.mp h
      rfl

end Gateway

theorem Run.settings {g₁ g : Gateway} {ms : List Moment} (hr : Run g₁ ms g) :
    g.settings = g₁.settings := by
  induction hr with
  | nil => rfl
  | snoc hrun hstep ih => exact (Gateway.settings_perform hstep).trans ih

end AgentGateway
