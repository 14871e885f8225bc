import AgentGateway.Proofs.Handled
import AgentGateway.Proofs.Workshop

namespace AgentGateway

def Call.handle? (c : Call) : Option Handle :=
  match c.stage with
  | .sending h _ | .waiting h _ => some h
  | _ => none

namespace Process

def call? : Process → Option Call
  | .call c => some c
  | .pages w => w.call
  | _ => none

def handle? (x : Process) : Option Handle := x.call?.bind Call.handle?

def incoming? : Process → Option (String × Message)
  | .message (.start id m) => some (id, m)
  | .answer _ (.handling (.start id m)) => some (id, m)
  | .sessionLoop { stage := .answering (.handling (.start id m)), .. } => some (id, m)
  | _ => none

end Process

namespace Gateway

variable {g g' g₁ : Gateway} {p q : ProcessId} {x y : Process} {i : Invocation}
  {o : Option ProcessId}

structure Spares (o : Option ProcessId) (g g' : Gateway) : Prop where
  numbered : g'.Numbered
  grown : g.nextProcess ≤ g'.nextProcess
  others : ∀ q x, o ≠ some q → g.process? q = some x → g'.process? q = some x
  fresh : ∀ q x, g.process? q = none → g'.process? q = some x →
    g.nextProcess ≤ q ∧ (o ≠ some q → x.handle? = none)

theorem Spares.trans (h : Spares o g g₁) (k : Spares o g₁ g') : Spares o g g' where
  numbered := k.numbered
  grown := Nat.le_trans h.grown k.grown
  others q x hq hx := k.others q x hq (h.others q x hq hx)
  fresh q x hnone hx := by
    cases hx₁ : g₁.process? q with
    | none =>
        obtain ⟨hq, hh⟩ := k.fresh q x hx₁ hx
        exact ⟨Nat.le_trans h.grown hq, hh⟩
    | some x₁ =>
        obtain ⟨hq, hh⟩ := h.fresh q x₁ hnone hx₁
        refine ⟨hq, fun ho => ?_⟩
        cases (k.others q x₁ ho hx₁).symm.trans hx
        exact hh ho

theorem Spares.of_none (h : Spares none g g') : Spares o g g' where
  numbered := h.numbered
  grown := h.grown
  others q x _ hx := h.others q x (by simp) hx
  fresh q x hnone hx := by
    obtain ⟨hq, hh⟩ := h.fresh q x hnone hx
    exact ⟨hq, fun _ => hh (by simp)⟩

theorem spares_of_processes (hn : g.Numbered) (hnext : g'.nextProcess = g.nextProcess)
    (h : ∀ q, g'.process? q = g.process? q) : Spares o g g' where
  numbered q hq := by
    rw [h]
    exact hn q (hnext ▸ hq)
  grown := Nat.le_of_eq hnext.symm
  others q x _ hx := by rw [h, hx]
  fresh q x hnone hx := by
    rw [h, hnone] at hx
    cases hx

theorem spares_of_inner (hn : g.Numbered) (h : g'.inner = g.inner) : Spares o g g' :=
  spares_of_processes hn (nextProcess_of_inner h) fun _ => process?_of_inner h

theorem spares_spawn (hn : g.Numbered) (hx : x.handle? = none) : Spares o g (g.spawn x).2 := by
  have hnext : (g.spawn x).2.nextProcess = g.nextProcess + 1 := nextProcess_of_inner inner_wake
  constructor
  case numbered =>
    intro q hq
    rw [hnext] at hq
    rw [process?_spawn hn, if_neg (Nat.ne_of_gt hq)]
    exact hn q (Nat.le_of_succ_le hq)
  case grown => exact Nat.le_of_lt (hnext ▸ Nat.lt_succ_self _)
  case others =>
    intro q y _ hy
    rw [process?_spawn hn, if_neg, hy]
    rintro rfl
    simp [hn _ (Nat.le_refl _)] at hy
  case fresh =>
    intro q y hnone hy
    rw [process?_spawn hn] at hy
    split at hy
    · rename_i hq
      cases hy
      exact ⟨Nat.le_of_eq hq.symm, fun _ => hx⟩
    · simp [hnone] at hy

theorem spares_of_same (hn : g.Numbered) (hnext : g'.nextProcess = g.nextProcess)
    (hsame : ∀ q, q ≠ p → g'.process? q = g.process? q)
    (habsent : g.process? p = none → g'.process? p = none) : Spares (some p) g g' := by
  have hnone (q : ProcessId) (hq : g.process? q = none) : g'.process? q = none := by
    by_cases heq : q = p
    · subst heq
      exact habsent hq
    · rw [hsame q heq, hq]
  constructor
  case numbered =>
    intro q hq
    exact hnone q (hn q (hnext ▸ hq))
  case grown => exact Nat.le_of_eq hnext.symm
  case others =>
    intro q y hq hy
    rw [hsame q (fun heq => hq (congrArg some heq.symm)), hy]
  case fresh =>
    intro q y hq hy
    cases (hnone q hq).symm.trans hy

theorem spares_setProcess (hn : g.Numbered) : Spares (some p) g (g.setProcess p x) := by
  refine spares_of_same hn rfl (fun q hq => ?_) fun h => ?_
  · rw [process?_setProcess, if_neg hq]
  · rw [process?_setProcess, if_pos rfl, h]
    rfl

theorem spares_setInvocation (hn : g.Numbered) : Spares (some p) g (g.setInvocation p i) := by
  refine spares_of_same hn rfl (fun q hq => ?_) fun h => ?_
  · rw [process?_setInvocation, if_neg hq]
  · rw [process?_setInvocation, if_pos rfl, h]
    rfl

theorem spares_removeProcess (hn : g.Numbered) : Spares (some p) g (g.removeProcess p) := by
  refine spares_of_same hn rfl (fun q hq => ?_) fun _ => ?_
  · rw [process?_removeProcess, if_neg hq]
  · rw [process?_removeProcess, if_pos rfl]

theorem signal_inner_cases (k : Token) :
    (g.signal k).inner = g.inner ∨
      (g.signal k).inner = { g with signalled := k :: g.signalled }.inner := by
  unfold signal
  split
  · exact .inl rfl
  · exact .inr (inner_wakeAll _)

theorem process?_signal {k : Token} : (g.signal k).process? q = g.process? q := by
  rcases signal_inner_cases (g := g) k with h | h
  · exact process?_of_inner h
  · exact process?_of_inner (g := { g with signalled := k :: g.signalled }) h

theorem spares_signal (hn : g.Numbered) {k : Token} : Spares o g (g.signal k) := by
  refine spares_of_processes hn ?_ fun _ => process?_signal
  rcases signal_inner_cases (g := g) k with h | h
  · exact nextProcess_of_inner h
  · exact nextProcess_of_inner (g := { g with signalled := k :: g.signalled }) h

inductive Worked (g : Gateway) (x : Process) : Process → Gateway → Prop
  | calm {y : Process} {g' : Gateway} : x.invocation? = none → y.invocation? = none →
      y.ownToken? = x.ownToken? → g'.inner = g.inner → Worked g x y g'
  | called {y z : Process} {g' : Gateway} : x.invocation? = none → y.invocation? = none →
      y.ownToken? = x.ownToken? → z.invocation? = none → z.ownToken? = none → z.handle? = none →
      g'.inner = (g.spawn z).2.inner → Worked g x y g'
  | handled {h : Handling} {y : Process} {g' : Gateway} :
      x.invocation? = none → x.ownToken? = none → y.invocation? = h.invocation? →
      y.ownToken? = none → Handled g h g' →
      (∃ id m, x.incoming? = some (id, m) ∧ g.handle id m = (h, g')) → Worked g x y g'
  | concluded {i : Invocation} {e : Ending} {y : Process} : x.invocation? = some i →
      i.ending? = some e → y.invocation? = none → y.ownToken? = x.ownToken? →
      Worked g x y (g.concludeTask i e)

theorem worked_handle? {h h' : Handling} {f : Handling → Process}
    (hw : ∀ h, (f h).invocation? = h.invocation?) (ht : ∀ h, (f h).ownToken? = none)
    (hin : ∀ id m, (f (.start id m)).incoming? = some (id, m))
    (hstep : g.handle? h = some (h', g')) : Worked g (f h) (f h') g' := by
  cases h with
  | start id m =>
      obtain rfl : _ = h' := congrArg Prod.fst (Option.some.inj hstep)
      obtain rfl : _ = g' := congrArg Prod.snd (Option.some.inj hstep)
      exact .handled (hw _) (ht _) (hw _) (ht _) handled_handle ⟨id, m, hin id m, rfl⟩
  | running i request n =>
      simp only [handle?, Option.map_eq_some_iff] at hstep
      obtain ⟨e, he, heq⟩ := hstep
      cases heq
      exact .concluded (hw _) he (hw _) ((ht _).trans (ht _).symm)
  | calling request poll =>
      obtain ⟨reply, -, heq⟩ := Option.map_eq_some_iff.mp hstep
      cases heq
      exact .calm (hw _) (hw _) ((ht _).trans (ht _).symm) rfl
  | done reply => cases hstep

theorem worked_answer? {id : String} {a a' : Answering} {f : Answering → Process}
    (hw : ∀ h, (f (.handling h)).invocation? = h.invocation?)
    (hn : ∀ a, (∀ h, a ≠ .handling h) → (f a).invocation? = none)
    (ht : ∀ a, (f a).ownToken? = none)
    (hin : ∀ id m, (f (.handling (.start id m))).incoming? = some (id, m))
    (hstep : g.answer? p id a = some (a', g')) :
    Worked g (f a) (f a') g' := by
  have htok (a a') : (f a').ownToken? = (f a).ownToken? := (ht _).trans (ht _).symm
  unfold answer? at hstep
  split at hstep
  · cases hstep
    exact .calm (hw _) (hn _ (by simp)) (htok _ _) rfl
  · cases hstep
    exact .calm (hw _) (hn _ (by simp)) (htok _ _) rfl
  · simp only [Option.map_eq_some_iff] at hstep
    obtain ⟨⟨h', g''⟩, hh, heq⟩ := hstep
    cases heq
    exact worked_handle? (f := fun h => f (.handling h)) hw (fun _ => ht _) hin hh
  · split at hstep
    all_goals
      cases hstep
      exact .calm (hn _ (by simp)) (hn _ (by simp)) (htok _ _) rfl
  · rename_i r d
    have hd : (g.deliver p r d).2.inner = g.inner := inner_deliver
    split at hstep
    · rename_i heq
      cases hstep
      rw [heq] at hd
      exact .calm (hn _ (by simp)) (hn _ (by simp)) (htok _ _) hd
    · rename_i heq
      split at hstep <;> cases hstep
      rw [heq] at hd
      exact .calm (hn _ (by simp)) (hn _ (by simp)) (htok _ _) hd
    · rename_i heq
      cases hstep
      rw [heq] at hd
      exact .calm (hn _ (by simp)) (hn _ (by simp)) (htok _ _) hd
  · cases hstep

theorem worked_advanceLoop? {l l' : SessionLoop} (hstep : g.advanceLoop? p l = some (l', g')) :
    Worked g (.sessionLoop l) (.sessionLoop l') g' := by
  obtain ⟨id, inbound, stage⟩ := l
  cases stage with
  | receiving =>
      simp only [advanceLoop?] at hstep
      split at hstep
      · split at hstep
        · cases hstep
          exact .called rfl rfl rfl rfl rfl rfl rfl
        · cases hstep
          exact .calm rfl rfl rfl rfl
      · split at hstep <;> cases hstep
        exact .calm rfl rfl rfl rfl
  | answering a =>
      have hloop (a' : Answering) (h : g.answer? p id a = some (a', g'))
          (hl : l' = { sessionId := id, inbound, stage := .answering a' }) :
          Worked g (.sessionLoop { sessionId := id, inbound, stage := .answering a })
            (.sessionLoop l') g' := by
        subst hl
        refine worked_answer?
          (f := fun a => .sessionLoop { sessionId := id, inbound, stage := .answering a })
          (fun h => ?_) (fun a ha => ?_) (fun _ => rfl) (fun _ _ => rfl) h
        · cases h <;> rfl
        · cases a with
          | handling h => exact absurd rfl (ha h)
          | _ => rfl
      cases a with
      | done writable =>
          cases hstep
          cases writable <;> exact .calm rfl rfl rfl rfl
      | _ =>
          simp only [advanceLoop?, Option.map_eq_some_iff] at hstep
          obtain ⟨⟨a', g''⟩, ha, heq⟩ := hstep
          cases heq
          exact hloop a' ha rfl
  | stopped => cases hstep

theorem worked_subscription? {s s' : Subscription} (hstep : g.subscription? p s = some (s', g')) :
    Worked g (.subscription s) (.subscription s') g' := by
  cases s with
  | running i =>
      simp only [subscription?, Option.map_eq_some_iff] at hstep
      obtain ⟨e, he, heq⟩ := hstep
      split at heq <;> cases heq <;> exact .concluded rfl he rfl rfl
  | closing r d =>
      have hd : (g.deliver p r d).2.inner = g.inner := inner_deliver
      simp only [subscription?] at hstep
      split at hstep
      · rename_i heq
        split at hstep <;> cases hstep
        rw [heq] at hd
        exact .calm rfl rfl rfl hd
      · rename_i heq
        cases hstep
        rw [heq] at hd
        exact .calm rfl rfl rfl hd
  | done => cases hstep

theorem inner_call? {c c' : Call} (h : g.call? p c = some (c', g')) : g'.inner = g.inner := by
  unfold call? at h
  cases hs : c.stage with
  | start =>
      simp only [hs, beginCall] at h
      split at h
      · cases h
        rfl
      · split at h <;> cases h <;> rfl
  | sending t d =>
      simp only [hs, Option.map_eq_some_iff, sendCall] at h
      obtain ⟨⟨stage, g₂⟩, hsend, heq⟩ := h
      cases heq
      have hd : (g.deliver p t.session d).2.inner = g.inner := inner_deliver
      split at hsend
      · rename_i hdel
        rw [hdel] at hd
        cases hsend
        cases c.timeout with
        | none => exact hd
        | some t => exact inner_setTimer.trans hd
      · rename_i hdel
        rw [hdel] at hd
        split at hsend <;> cases hsend
        exact hd
      · rename_i hdel
        rw [hdel] at hd
        cases hsend
        exact (inner_dropHandle.trans inner_clearTimer).trans hd
  | waiting t deadline =>
      simp only [hs, Option.map_eq_some_iff, awaitCall] at h
      obtain ⟨⟨stage, g₂⟩, hwait, heq⟩ := h
      cases heq
      split at hwait
      · cases hwait
        exact inner_dropHandle.trans inner_clearTimer
      · split at hwait <;> cases hwait
        exact inner_dropHandle.trans inner_clearTimer
      · cases hwait
        exact inner_dropHandle.trans inner_clearTimer
  | done result => simp [hs] at h

@[simp] theorem inner_dropCall {c : Call} : (g.dropCall p c).inner = g.inner := by
  unfold dropCall
  split <;> simp

theorem walk?_spec {w w' : PageWalk} (h : g.walk? p w = some (w', g')) :
    w'.token = w.token ∧ g'.inner = g.inner := by
  unfold walk? at h
  split at h
  · cases h
  · split at h
    · cases h
      exact ⟨rfl, inner_dropCall⟩
    · split at h
      · rename_i result _
        cases h
        refine ⟨?_, rfl⟩
        unfold PageWalk.follow
        split
        · rfl
        · split
          · rfl
          · split
            · unfold PageWalk.skip
              dsimp only
              split <;> rfl
            · unfold PageWalk.skip
              dsimp only
              split <;> rfl
            · unfold PageWalk.turn
              split <;> rfl
      · simp only [Option.map_eq_some_iff] at h
        obtain ⟨⟨c', g₂⟩, hc, heq⟩ := h
        cases heq
        exact ⟨rfl, inner_call? hc⟩

theorem worked_walk? {w w' : PageWalk} (h : g.walk? p w = some (w', g')) :
    Worked g (.pages w) (.pages w') g' := by
  obtain ⟨ht, hi⟩ := walk?_spec h
  exact .calm rfl rfl (congrArg some ht) hi

theorem worked_notify? {n n' : Notice} (h : g.notify? p n = some (n', g')) :
    Worked g (.notice n) (.notice n') g' := by
  suffices hs : g'.inner = g.inner from .calm rfl rfl rfl hs
  unfold notify? at h
  split at h
  · cases h
    rfl
  · cases h
    exact inner_disconnectEach _
  · rename_i pending _ _
    have ht : (g.tellEach p pending n).2.2.inner = g.inner := inner_tellEach _ _
    dsimp only at h
    split at h <;> cases h
    exact ht
  · cases h

theorem worked_sweep? {s s' : Sweeper} (h : g.sweep? p s = some (s', g')) :
    Worked g (.sweeper s) (.sweeper s') g' := by
  unfold sweep? at h
  split at h
  · cases h
  · split at h
    · cases h
      exact .calm rfl rfl rfl rfl
    · split at h
      · cases h
        exact .calm rfl rfl rfl inner_setTimer
      · split at h <;> cases h
        exact .calm rfl rfl rfl inner_evictIdle

theorem of_staged {α : Type} {f : α → Process} {o : Option (α × Gateway)}
    (h : ((o.map fun (a, g) => (f a, g)).bind fun (x, g) => some (g.setProcess p x)) = some g') :
    ∃ a g₁, o = some (a, g₁) ∧ g' = g₁.setProcess p (f a) := by
  cases o with
  | none => cases h
  | some y => exact ⟨y.1, y.2, rfl, (Option.some.inj h).symm⟩

theorem worked_control? (h : g.control? p = some g') :
    ∃ x y g₁, g.process? p = some x ∧ Worked g x y g₁ ∧ g' = g₁.setProcess p y := by
  obtain ⟨x, hx, h⟩ := Option.bind_eq_some_iff.mp h
  refine ⟨x, ?_⟩
  cases x with
  | message m =>
      obtain ⟨m', g₁, hm, rfl⟩ := of_staged h
      exact ⟨_, g₁, hx, worked_handle? Process.invocation?_message (fun _ => rfl)
        (fun _ _ => rfl) hm, rfl⟩
  | answer id a =>
      obtain ⟨a', g₁, ha, rfl⟩ := of_staged h
      refine ⟨_, g₁, hx, worked_answer? (f := .answer id) (Process.invocation?_handling id)
        (fun a ha => ?_) (fun _ => rfl) (fun _ _ => rfl) ha, rfl⟩
      cases a with
      | handling h => exact absurd rfl (ha h)
      | _ => rfl
  | sessionLoop l =>
      obtain ⟨l', g₁, hl, rfl⟩ := of_staged h
      exact ⟨_, g₁, hx, worked_advanceLoop? hl, rfl⟩
  | subscription s =>
      obtain ⟨s', g₁, hs, rfl⟩ := of_staged h
      exact ⟨_, g₁, hx, worked_subscription? hs, rfl⟩
  | call c =>
      obtain ⟨c', g₁, hc, rfl⟩ := of_staged h
      exact ⟨.call c', g₁, hx, .calm rfl rfl rfl (inner_call? hc), rfl⟩
  | pages w =>
      obtain ⟨w', g₁, hw, rfl⟩ := of_staged h
      exact ⟨_, g₁, hx, worked_walk? hw, rfl⟩
  | notice n =>
      obtain ⟨n', g₁, hn, rfl⟩ := of_staged h
      exact ⟨_, g₁, hx, worked_notify? hn, rfl⟩
  | sweeper s =>
      obtain ⟨s', g₁, hs, rfl⟩ := of_staged h
      exact ⟨_, g₁, hx, worked_sweep? hs, rfl⟩

end Gateway

end AgentGateway
