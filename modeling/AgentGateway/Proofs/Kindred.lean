import AgentGateway.Proofs.Posting

namespace AgentGateway

def Act.isStepOf (p : ProcessId) : Act → Bool
  | .control q => q = p
  | _ => false

theorem Act.isStepOf_iff {p : ProcessId} {a : Act} : a.isStepOf p = true ↔ a = .control p := by
  cases a <;> simp [isStepOf]

namespace Subscription

/-- That a subscription has no invocation any more. -/
def IsOver : Subscription → Prop
  | .running _ => False
  | _ => True

end Subscription

/-- That a process has not taken a step of its own to become another one. -/
inductive Process.Kindred : Process → Process → Prop
  | same {x : Process} : Kindred x x
  | invocation {x : Process} {i : Invocation} : Kindred x (x.withInvocation i)
  | inbound {l : SessionLoop} {inbound : Channel Message} :
      Kindred (.sessionLoop l) (.sessionLoop { l with inbound })
  | items {w : PageWalk} {items : List Message} : Kindred (.pages w) (.pages { w with items })
  | settled {x : Process} {poll : ToolPoll} : Kindred x (x.settle poll)

namespace Process.Kindred

variable {x y : Process} {u : Subscription}

theorem call? (h : Kindred x y) : y.call? = x.call? := by
  cases h with
  | same | inbound | items => rfl
  | invocation =>
      unfold withInvocation
      split
      · rfl
      · rfl
      · split <;> rfl
      · rfl
      · rfl
  | settled =>
      unfold settle
      split
      · rfl
      · rfl
      · split <;> rfl
      · rfl

theorem exists_of_subscription (h : Kindred x (.subscription u)) : ∃ v, x = .subscription v := by
  generalize hz : Process.subscription u = y at h
  cases h with
  | same => exact ⟨u, hz.symm⟩
  | inbound | items => cases hz
  | invocation =>
      unfold withInvocation at hz
      split at hz
      · cases hz
      · cases hz
      · split at hz <;> cases hz
      · exact ⟨_, rfl⟩
      · exact ⟨u, hz.symm⟩
  | settled =>
      unfold settle at hz
      split at hz
      · cases hz
      · cases hz
      · split at hz <;> cases hz
      · exact ⟨u, hz.symm⟩

theorem exists_of_running {i : Invocation}
    (h : Kindred (.subscription (.running i)) (.subscription u)) : ∃ j, u = .running j := by
  generalize hz : Process.subscription u = y at h
  cases h with
  | same =>
      cases hz
      exact ⟨i, rfl⟩
  | invocation =>
      cases hz
      exact ⟨_, rfl⟩
  | settled =>
      cases hz
      exact ⟨i, rfl⟩

theorem notice {n : Notice} (h : Kindred (.notice n) y) : y = .notice n := by
  cases h with
  | same | invocation | settled => rfl

theorem sweeper {w : Sweeper} (h : Kindred (.sweeper w) y) : y = .sweeper w := by
  cases h with
  | same | invocation | settled => rfl

theorem of_over (h : Kindred (.subscription u) y) (hu : u.IsOver) : y = .subscription u := by
  cases h with
  | same | settled => rfl
  | invocation =>
      cases u with
      | running i => exact hu.elim
      | closing r d => rfl
      | done => rfl

end Process.Kindred

namespace Gateway

open Process (Kindred)

variable {g g' g₁ : Gateway} {p q : ProcessId} {x y : Process} {a : Act}

theorem kindred_same (h : g'.process? q = g.process? q) (hy : g'.process? q = some y) :
    ∃ x, g.process? q = some x ∧ Kindred x y := ⟨y, h.symm.trans hy, .same⟩

theorem kindred_setInvocation {i : Invocation} (hy : (g.setInvocation p i).process? q = some y) :
    ∃ x, g.process? q = some x ∧ Kindred x y := by
  rw [process?_setInvocation] at hy
  split at hy
  · rename_i h
    obtain ⟨x, hx, rfl⟩ := Option.map_eq_some_iff.mp hy
    exact ⟨x, h ▸ hx, .invocation⟩
  · exact ⟨y, hy, .same⟩

theorem kindred_setProcess {z : Process} (hx : g.process? p = some x) (hk : Kindred x z)
    (hy : (g.setProcess p z).process? q = some y) : ∃ x, g.process? q = some x ∧ Kindred x y := by
  rw [process?_setProcess] at hy
  split at hy
  · rename_i h
    rw [hx] at hy
    obtain rfl := Option.some.inj hy
    exact ⟨x, h ▸ hx, hk⟩
  · exact ⟨y, hy, .same⟩

theorem kindred_settleTool {poll : ToolPoll} (hy : (g.settleTool p poll).process? q = some y) :
    ∃ x, g.process? q = some x ∧ Kindred x y := by
  rw [process?_settleTool] at hy
  split at hy
  · rename_i h
    obtain ⟨x, hx, rfl⟩ := Option.map_eq_some_iff.mp hy
    exact ⟨x, h ▸ hx, .settled⟩
  · exact ⟨y, hy, .same⟩

theorem kindred_setInbound {l : SessionLoop} {c : Channel Message}
    (hl : g.process? p = some (.sessionLoop l)) (hy : (g.setInbound p l c).process? q = some y) :
    ∃ x, g.process? q = some x ∧ Kindred x y := by
  have hp : (g.setInbound p l c).process? q =
      (g.setProcess p (.sessionLoop { l with inbound := c })).process? q := by
    unfold setInbound
    dsimp only
    split
    · exact process?_of_inner inner_wake
    · rfl
  exact kindred_setProcess hl .inbound (hp.symm.trans hy)

theorem kindred_named (h : g.perform a = some g') (hne : a ≠ .control q)
    (hq : a.process? = some q) (hy : g'.process? q = some y) :
    ∃ x, g.process? q = some x ∧ Kindred x y := by
  cases a with
  | feed p m =>
      cases h
      unfold feed at hy
      cases hl : g.loop? p with
      | none =>
          rw [hl] at hy
          exact kindred_same rfl hy
      | some l =>
          simp only [hl] at hy
          split at hy
          · exact kindred_setInbound (process?_of_loop? hl) hy
          · exact kindred_same rfl hy
  | hangUp p =>
      cases h
      unfold hangUp at hy
      cases hl : g.loop? p with
      | none =>
          rw [hl] at hy
          exact kindred_same rfl hy
      | some l =>
          rw [hl] at hy
          exact kindred_setInbound (process?_of_loop? hl) hy
  | takePages p =>
      cases h
      unfold takePages at hy
      cases hw : g.walkOf? p with
      | none =>
          rw [hw] at hy
          exact kindred_same rfl hy
      | some w =>
          rw [hw] at hy
          exact kindred_setProcess (process?_of_walkOf? hw) .items hy
  | cancelPages p =>
      cases h
      unfold cancelPages at hy
      split at hy
      · exact kindred_same rfl hy
      · exact kindred_same process?_signal hy
  | stopSweeper p =>
      cases h
      unfold stopSweeper at hy
      cases hw : g.sweeper? p with
      | none =>
          rw [hw] at hy
          exact kindred_same rfl hy
      | some w =>
          rw [hw] at hy
          exact kindred_same process?_signal hy
  | abort p =>
      cases h
      cases hq
      unfold abort at hy
      split at hy
      · exact kindred_same rfl hy
      · rw [process?_removeProcess, if_pos rfl] at hy
        cases hy
  | settleTool p poll =>
      cases h
      exact kindred_settleTool hy
  | produce p =>
      obtain ⟨i, u, producer, g₁, j, -, -, hg, -, rfl, -⟩ := produce?_spec h
      obtain ⟨x, hx, hk⟩ := kindred_setInvocation hy
      exact ⟨x, (process?_of_inner hg).symm.trans hx, hk⟩
  | consume p =>
      obtain ⟨g₁, j, rfl, -, hp⟩ := consume?_spec h
      obtain ⟨x, hx, hk⟩ := kindred_setInvocation hy
      exact ⟨x, (hp q).symm.trans hx, hk⟩
  | listen p =>
      cases h
      unfold listen at hy
      split at hy
      · exact kindred_same rfl hy
      · split at hy
        · exact kindred_setInvocation hy
        · exact kindred_same rfl hy
  | swapSides p =>
      obtain ⟨i, -, rfl⟩ := Option.map_eq_some_iff.mp h
      exact kindred_setInvocation hy
  | control p =>
      cases hq
      exact (hne rfl).elim
  | _ => cases hq

theorem kindred_perform (hn : g.Numbered) (h : g.perform a = some g') (hne : a ≠ .control q)
    (hy : g'.process? q = some y) : (∃ x, g.process? q = some x ∧ Kindred x y) ∨
      (g.nextProcess ≤ q ∧ y.handle? = none) := by
  have hs := (simulated_perform hn h).spares
  by_cases hq : a.process? = some q
  · exact .inl (kindred_named h hne hq hy)
  · cases hx : g.process? q with
    | some x =>
        cases (hs.others q x hq hx).symm.trans hy
        exact .inl ⟨_, rfl, .same⟩
    | none =>
        obtain ⟨hlt, hh⟩ := hs.fresh q y hx hy
        exact .inr ⟨hlt, hh hq⟩

theorem kindred_begun (hn : g.Numbered) (h : g.perform a = some g') (hne : a ≠ .control q)
    (hq : q < g.nextProcess) (hy : g'.process? q = some y) :
    ∃ x, g.process? q = some x ∧ Kindred x y :=
  (kindred_perform hn h hne hy).resolve_right fun hnew => absurd hq (Nat.not_lt.mpr hnew.1)

end Gateway

end AgentGateway
