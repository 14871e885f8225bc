import Mathlib.Data.List.Basic

namespace AgentGateway

structure Transit (σ μ : Type) where
  before : σ
  move : μ
  after : σ

inductive Way {σ μ : Type} (step : σ → μ → Option σ) (start : σ) :
    List (Transit σ μ) → σ → Prop
  | nil : Way step start [] start
  | snoc {xs x v x'} :
      Way step start xs x → step x v = some x' → Way step start (xs ++ [⟨x, v, x'⟩]) x'

namespace Way

variable {σ μ : Type} {step : σ → μ → Option σ} {start mid x x' : σ}
  {xs ys before after : List (Transit σ μ)} {y : Transit σ μ}

theorem append (h : Way step start xs mid) (k : Way step mid ys x) :
    Way step start (xs ++ ys) x := by
  induction k with
  | nil => rwa [List.append_nil]
  | snoc _ hstep ih =>
      rw [← List.append_assoc]
      exact .snoc ih hstep

theorem single (h : step x v = some x') : Way step x [⟨x, v, x'⟩] x' := .snoc .nil h

theorem split (h : Way step start xs x) (hxs : xs = before ++ y :: after) :
    Way step start before y.before ∧ step y.before y.move = some y.after := by
  induction h generalizing after with
  | nil => simp at hxs
  | @snoc xs x v x' hway hstep ih =>
      rcases List.eq_nil_or_concat after with rfl | ⟨rest, last, rfl⟩
      · obtain ⟨rfl, heq⟩ := List.append_inj' hxs rfl
        obtain rfl := List.singleton_inj.mp heq
        exact ⟨hway, hstep⟩
      · rw [List.concat_eq_append, ← List.cons_append, ← List.append_assoc] at hxs
        exact ih (List.append_inj' hxs rfl).1

def replay (step : σ → μ → Option σ) : List μ → σ → Option (List (Transit σ μ) × σ)
  | [], x => some ([], x)
  | v :: vs, x => do
    let x' ← step x v
    let (xs, last) ← replay step vs x'
    some (⟨x, v, x'⟩ :: xs, last)

theorem of_replay {vs : List μ} (h : replay step vs x = some (xs, x')) : Way step x xs x' := by
  induction vs generalizing x xs with
  | nil =>
      cases h
      exact .nil
  | cons v vs ih =>
      obtain ⟨x₁, hstep, h⟩ := Option.bind_eq_some_iff.mp h
      obtain ⟨⟨ys, last⟩, hrest, h⟩ := Option.bind_eq_some_iff.mp h
      cases h
      exact (single hstep).append (ih hrest)

end Way

end AgentGateway
