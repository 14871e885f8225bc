import AgentGateway.Invocation.Producer

namespace AgentGateway

namespace Action

def steps : Action → Nat
  | .check => 1
  | .pause _ | .emit _ => 2
  | .chunks _ next count => 1 + 5 * (count - next)

def stepsOf : List Action → Nat
  | [] => 0
  | a :: rest => a.steps + stepsOf rest

theorem stepsOf_append {as bs : List Action} : stepsOf (as ++ bs) = stepsOf as + stepsOf bs := by
  induction as with
  | nil => exact (Nat.zero_add _).symm
  | cons a as ih => rw [List.cons_append, stepsOf, ih, stepsOf, Nat.add_assoc]

end Action

namespace Producer

variable {id : String} {around : Surroundings} {x x' : Producer} {u : Option Update}

def Heeds (x : Producer) : Prop :=
  match x.stage with
  | .ready => x.plan.actions ≠ []
  | .emitting _ | .sleeping _ => True
  | .ended _ => False

inductive Moves (id : String) (around : Surroundings) (x : Producer) :
    Option Update → Producer → Prop
  | halted : x.Heeds → around.cancelled = true → Moves id around x none (x.stop .cancelled)
  | deserted {v} : x.stage = .emitting v → around.cancelled = false → around.hasTaker = false →
      Moves id around x none (x.stop .abandoned)
  | put {v} : x.stage = .emitting v → around.cancelled = false → around.hasTaker = true →
      around.hasRoom = true → Moves id around x (some v) { x with stage := .ready }
  | woke {t} : x.stage = .sleeping t → around.cancelled = false → t ≤ around.now →
      Moves id around x none { x with stage := .ready }
  | finished : x.stage = .ready → x.plan.actions = [] →
      Moves id around x none { x with stage := .ended x.plan.ending }
  | unrolled {index next count rest} : x.stage = .ready →
      x.plan.actions = .chunks index next count :: rest →
      Moves id around x none (x.goto (expand id x.chunkDelay index next count ++ rest) .ready)
  | checked {rest} : x.stage = .ready → x.plan.actions = .check :: rest →
      around.cancelled = false → Moves id around x none (x.goto rest .ready)
  | paused {d rest} : x.stage = .ready → x.plan.actions = .pause d :: rest →
      around.cancelled = false → Moves id around x none (x.goto rest (.sleeping (around.now + d)))
  | offered {v rest} : x.stage = .ready → x.plan.actions = .emit v :: rest →
      around.cancelled = false →
      Moves id around x none (x.goto rest (.emitting (v.stamped around.timestamp)))

theorem moves_of_advance? (h : x.advance? id around = some (u, x')) : Moves id around x u x' := by
  unfold advance? at h
  split at h
  · cases h
  · rename_i t hs
    split at h
    · rename_i hc
      cases h
      exact .halted (by simp [Heeds, hs]) hc
    · rename_i hc
      split at h <;> cases h
      rename_i ht
      exact .woke hs (by simpa using hc) ht
  · rename_i v hs
    split at h
    · rename_i hc
      cases h
      exact .halted (by simp [Heeds, hs]) hc
    · rename_i hc
      split at h
      · rename_i ht
        cases h
        exact .deserted hs (by simpa using hc) (by simpa using ht)
      · rename_i ht
        split at h <;> cases h
        rename_i hr
        exact .put hs (by simpa using hc) (by simpa using ht) hr
  · rename_i hs
    split at h
    · rename_i ha
      cases h
      exact .finished hs ha
    · rename_i ha
      cases h
      exact .unrolled hs ha
    · rename_i action rest hne ha
      split at h
      · rename_i hc
        cases h
        exact .halted (by simp [Heeds, hs, ha]) hc
      · rename_i hc
        have hc : around.cancelled = false := by simpa using hc
        cases action with
        | check =>
            cases h
            exact .checked hs ha hc
        | pause d =>
            cases h
            exact .paused hs ha hc
        | emit v =>
            cases h
            exact .offered hs ha hc
        | chunks index next count => exact (hne index next count rfl).elim

theorem Moves.unended (h : Moves id around x u x') : x.ending? = none := by
  unfold ending?
  cases h with
  | halted hh _ =>
      unfold Heeds at hh
      split at hh <;> simp_all
  | deserted hs | put hs | woke hs | finished hs | unrolled hs | checked hs | paused hs
  | offered hs => rw [hs]

theorem exists_advance (hopen : x.ending? = none)
    (hs : around.cancelled = false → ∀ t, x.stage = .sleeping t → t ≤ around.now)
    (hr : around.cancelled = false → around.hasTaker = true → around.hasRoom = true) :
    ∃ u x', x.advance? id around = some (u, x') := by
  unfold advance?
  cases hstage : x.stage with
  | ended e => simp [ending?, hstage] at hopen
  | sleeping t =>
      cases hc : around.cancelled with
      | true => exact ⟨_, _, rfl⟩
      | false => exact ⟨_, _, if_pos (hs hc t hstage)⟩
  | emitting v =>
      cases hc : around.cancelled with
      | true => exact ⟨_, _, rfl⟩
      | false =>
          cases ht : around.hasTaker with
          | false => exact ⟨_, _, rfl⟩
          | true =>
              rw [hr hc ht]
              exact ⟨_, _, rfl⟩
  | ready =>
      cases ha : x.plan.actions with
      | nil => exact ⟨_, _, rfl⟩
      | cons action rest =>
          cases hc : around.cancelled with
          | true => cases action <;> exact ⟨_, _, rfl⟩
          | false => cases action <;> exact ⟨_, _, rfl⟩

def remaining (x : Producer) : Nat :=
  match x.stage with
  | .ready => 1 + Action.stepsOf x.plan.actions
  | .emitting _ | .sleeping _ => 2 + Action.stepsOf x.plan.actions
  | .ended _ => 0

theorem remaining_pos (h : x.Heeds) : 0 < x.remaining := by
  unfold Heeds at h
  unfold remaining
  split at h
  · omega
  · omega
  · omega
  · exact h.elim

theorem stepsOf_expand (id : String) (delay : Nanos) (index next count : Nat) :
    Action.stepsOf (expand id delay index next count) < 1 + 5 * (count - next) := by
  unfold expand
  by_cases h : next < count
  · rw [if_pos h]
    by_cases hn : 0 < next
    · simp [hn, Action.steps, Action.stepsOf]
      omega
    · simp [hn, Action.steps, Action.stepsOf]
      omega
  · rw [if_neg h, Action.stepsOf]
    omega

theorem Moves.remaining_lt (h : Moves id around x u x') : x'.remaining < x.remaining := by
  cases h with
  | halted hh _ =>
      have hpos := remaining_pos hh
      simpa [remaining, stop] using hpos
  | deserted hs _ _ =>
      simp only [remaining, stop, hs]
      omega
  | put hs _ _ _ | woke hs _ _ | finished hs _ =>
      simp only [remaining, hs]
      omega
  | @unrolled index next count rest hs ha =>
      have hlt := stepsOf_expand id x.chunkDelay index next count
      simp only [remaining, goto, hs, ha, Action.stepsOf_append, Action.stepsOf, Action.steps]
      omega
  | checked hs ha _ =>
      simp only [remaining, goto, hs, ha, Action.stepsOf, Action.steps]
      omega
  | paused hs ha _ =>
      simp only [remaining, goto, hs, ha, Action.stepsOf, Action.steps]
      omega
  | offered hs ha _ =>
      simp only [remaining, goto, hs, ha, Action.stepsOf, Action.steps]
      omega

end Producer

end AgentGateway
