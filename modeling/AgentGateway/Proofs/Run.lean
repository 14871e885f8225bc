import AgentGateway.Gateway.Service
import AgentGateway.Gateway.Transport
/-!
Runs of a gateway. A run is any sequence of acts, those of the host and the single steps of the
processes, in any order; what the schedule makes of a gateway is one of them.
-/

namespace AgentGateway

open Json (Value)

inductive Act where
  | openSession (draws : List String) (owner : String) (kind : SessionKind) (params : SessionParams)
  | closeSession (id : String) (reason : CloseReason)
  | shutdown
  | evictIdle (timeout : Nanos)
  | submit (sessionId : String) (m : Message)
  | startLoop (sessionId : String) (capacity : Nat)
  | feed (p : ProcessId) (m : Message)
  | hangUp (p : ProcessId)
  | receive (r : SessionRef)
  | dropReceiver (r : SessionRef)
  | request (sessionId method : String) (params : Option Value) (timeout : Option Nanos)
  | listPages (sessionId method : String) (params : Option Value) (client : ClientSettings)
  | takePages (p : ProcessId)
  | cancelPages (p : ProcessId)
  | notify (method : String) (params : Option Value)
  | startSweeper (idleTimeout interval : Nanos)
  | stopSweeper (p : ProcessId)
  | abort (p : ProcessId)
  | settleTool (p : ProcessId) (poll : ToolPoll)
  -- a host that works on a session itself
  | register (r : SessionRef) (id : RequestId) (method : String)
  | cancelPending (r : SessionRef) (id : RequestId)
  | resolve (r : SessionRef) (m : Message)
  | takeRequestId (r : SessionRef)
  | offer (r : SessionRef) (m : Message)
  | shut (r : SessionRef)
  | transition (r : SessionRef) (target : SessionStatus)
  | touch (r : SessionRef)
  | setOverrides (r : SessionRef) (overrides : RateOverrides)
  -- the clocks, and the order of the processes
  | tick (d : Nanos)
  | setUptime (secs : Nat)
  | reschedule (s : Schedule)
  -- the processes
  | produce (p : ProcessId)
  | consume (p : ProcessId)
  | listen (p : ProcessId)
  | swapSides (p : ProcessId)
  | control (p : ProcessId)

namespace Gateway

def amend (r : SessionRef) (f : Session → Session) (g : Gateway) : Option Gateway :=
  (g.session? r).map fun s => g.setSession r (f s)

def perform (a : Act) (g : Gateway) : Option Gateway :=
  match a with
  | .openSession draws owner kind params => (g.openSession draws owner kind params).map Prod.snd
  | .closeSession id reason => some (g.closeSession id reason).2
  | .shutdown => some g.shutdown.2
  | .evictIdle timeout => some (g.evictIdle timeout).2
  | .submit sessionId m => some (g.submit sessionId m).2
  | .startLoop sessionId capacity => some (g.startLoop sessionId capacity).2
  | .feed p m => some (g.feed p m).2
  | .hangUp p => some (g.hangUp p)
  | .receive r => (g.receive? r).map Prod.snd
  | .dropReceiver r => some (g.dropReceiver r)
  | .request sessionId method params timeout => some (g.request sessionId method params timeout).2
  | .listPages sessionId method params client =>
    some (g.listPages sessionId method params client).2
  | .takePages p => some (g.takePages p).2
  | .cancelPages p => some (g.cancelPages p).2
  | .notify method params => some (g.notify method params).2
  | .startSweeper idleTimeout interval => some (g.startSweeper idleTimeout interval).2
  | .stopSweeper p => some (g.stopSweeper p)
  | .abort p => some (g.abort p)
  | .settleTool p poll => some (g.settleTool p poll)
  | .register r id method =>
    (g.session? r).bind fun s => ((g.register r s id method).map Prod.snd).toOption
  | .cancelPending r id => some (g.cancelPending r id).2
  | .resolve r m => some (g.resolve r m).2
  | .takeRequestId r => g.amend r fun s => s.takeRequestId.2
  | .offer r m => some (g.offer r m).2
  | .shut r => some (g.shut r).2
  | .transition r target => g.amend r fun s => (s.transition target).toOption.getD s
  | .touch r => g.amend r (Session.touch g.now)
  | .setOverrides r overrides => g.amend r fun s => { s with overrides }
  | .tick d => some { g with now := g.now + d }
  | .setUptime secs => some { g with uptimeSecs := secs }
  | .reschedule s => some { g with schedule := s }
  | .produce p => g.produce? p
  | .consume p => g.consume? p
  | .listen p => some (g.listen p)
  | .swapSides p =>
    (g.invocation? p).map fun i => g.setInvocation p { i with consumerFirst := !i.consumerFirst }
  | .control p => g.control? p

def IsNew (g : Gateway) : Prop :=
  ∃ settings tools epoch, g = { Gateway.new settings tools with epoch }

end Gateway

structure Moment where
  before : Gateway
  act : Act
  after : Gateway

/-- What has happened on the way from one gateway to another, the earliest first. -/
inductive Run (start : Gateway) : List Moment → Gateway → Prop
  | nil : Run start [] start
  | snoc {ms g a g'} : Run start ms g → g.perform a = some g' → Run start (ms ++ [⟨g, a, g'⟩]) g'

theorem take_append_cons_drop {α : Type} {l : List α} {j : Nat} {a : α} (h : l[j]? = some a) :
    l.take j ++ a :: l.drop (j + 1) = l := by
  obtain ⟨hlt, rfl⟩ := List.getElem?_eq_some_iff.mp h
  rw [← List.drop_eq_getElem_cons hlt, List.take_append_drop]

theorem filterMap_snoc {α β : Type} (f : α → Option β) (l : List α) (a : α) :
    (l ++ [a]).filterMap f = l.filterMap f ++ (f a).toList := by
  rw [List.filterMap_append, List.filterMap_cons]
  cases f a <;> rfl

namespace Run

theorem append {start mid g : Gateway} {ms ns : List Moment}
    (h : Run start ms mid) (k : Run mid ns g) : Run start (ms ++ ns) g := by
  induction k with
  | nil => simpa using h
  | snoc _ hstep ih =>
      rw [← List.append_assoc]
      exact .snoc ih hstep

theorem single {g g' : Gateway} {a : Act} (h : g.perform a = some g') :
    Run g [⟨g, a, g'⟩] g' := by
  simpa using Run.snoc .nil h

theorem unappend {start g : Gateway} {before after ms : List Moment} (h : Run start ms g)
    (hms : ms = before ++ after) : ∃ mid, Run start before mid ∧ Run mid after g := by
  induction h generalizing after with
  | nil =>
      obtain ⟨rfl, rfl⟩ := List.append_eq_nil_iff.mp hms.symm
      exact ⟨start, .nil, .nil⟩
  | @snoc ms' g' a g'' hrun hstep ih =>
      rcases List.eq_nil_or_concat after with rfl | ⟨rest, last, rfl⟩
      · rw [List.append_nil] at hms
        exact ⟨g'', hms ▸ hrun.snoc hstep, .nil⟩
      · rw [List.concat_eq_append, ← List.append_assoc] at hms
        rw [List.concat_eq_append]
        obtain ⟨hms', hlast⟩ := List.append_inj' hms rfl
        obtain ⟨mid, h₁, h₂⟩ := ih hms'
        obtain rfl : _ = last := List.singleton_inj.mp hlast
        exact ⟨mid, h₁, h₂.snoc hstep⟩

theorem eq_of_nil {start g : Gateway} {ms : List Moment} (h : Run start ms g) (hms : ms = []) :
    g = start := by
  cases h with
  | nil => rfl
  | snoc _ _ => simp at hms

theorem uncons {start g : Gateway} {ms ns : List Moment} {m : Moment} (h : Run start ms g)
    (hms : ms = m :: ns) :
    m.before = start ∧ m.before.perform m.act = some m.after ∧ Run m.after ns g := by
  induction h generalizing ns with
  | nil => cases hms
  | @snoc ms' g' a g'' hrun hstep ih =>
      cases ms' with
      | nil =>
          obtain ⟨rfl, rfl⟩ := List.cons.inj hms
          exact ⟨hrun.eq_of_nil rfl, hstep, .nil⟩
      | cons m' ms' =>
          obtain ⟨rfl, rfl⟩ := List.cons.inj hms
          obtain ⟨hstart, hperf, hrest⟩ := ih rfl
          exact ⟨hstart, hperf, hrest.snoc hstep⟩

theorem split {start g : Gateway} {ms before after : List Moment} {m : Moment}
    (h : Run start ms g) (hms : ms = before ++ m :: after) :
    Run start before m.before ∧ m.before.perform m.act = some m.after ∧ Run m.after after g := by
  obtain ⟨mid, h₁, h₂⟩ := h.unappend hms
  obtain ⟨rfl, hstep, hrest⟩ := h₂.uncons rfl
  exact ⟨h₁, hstep, hrest⟩

theorem at_index {start g : Gateway} {ms : List Moment} {m : Moment} {j : Nat}
    (h : Run start ms g) (hj : ms[j]? = some m) :
    Run start (ms.take j) m.before ∧ m.before.perform m.act = some m.after ∧
      Run m.after (ms.drop (j + 1)) g :=
  h.split (take_append_cons_drop hj).symm

theorem between_indices {start g : Gateway} {ms : List Moment} {m n : Moment} {j k : Nat}
    (h : Run start ms g) (hj : ms[j]? = some m) (hk : ms[k]? = some n) (hlt : j < k) :
    ∃ mid, Run m.after mid n.before := by
  obtain ⟨-, -, hrest⟩ := h.at_index hj
  have hk : (ms.drop (j + 1))[k - (j + 1)]? = some n := by
    rw [List.getElem?_drop, Nat.add_sub_cancel' hlt]
    exact hk
  exact ⟨_, (hrest.at_index hk).1⟩

end Run

def Gateway.replay : List Act → Gateway → Option (List Moment × Gateway)
  | [], g => some ([], g)
  | a :: acts, g => do
    let g' ← g.perform a
    let (ms, last) ← g'.replay acts
    some (⟨g, a, g'⟩ :: ms, last)

theorem Run.of_replay {acts : List Act} {g g' : Gateway} {ms : List Moment}
    (h : g.replay acts = some (ms, g')) : Run g ms g' := by
  induction acts generalizing g ms with
  | nil =>
      cases h
      exact .nil
  | cons a acts ih =>
      obtain ⟨g₁, hstep, h⟩ := Option.bind_eq_some_iff.mp h
      obtain ⟨⟨ns, last⟩, hrest, h⟩ := Option.bind_eq_some_iff.mp h
      cases h
      exact (Run.single hstep).append (ih hrest)

theorem Gateway.acts_of_replay {acts : List Act} {g g' : Gateway} {ms : List Moment}
    (h : g.replay acts = some (ms, g')) : ms.map Moment.act = acts := by
  induction acts generalizing g ms with
  | nil =>
      cases h
      rfl
  | cons a acts ih =>
      obtain ⟨g₁, -, h⟩ := Option.bind_eq_some_iff.mp h
      obtain ⟨⟨ns, last⟩, hrest, h⟩ := Option.bind_eq_some_iff.mp h
      cases h
      simp [ih hrest]

theorem Moment.act_of_acts {ms : List Moment} {acts : List Act} {x : Moment} {j : Nat}
    (h : ms.map act = acts) (hx : ms[j]? = some x) : acts[j]? = some x.act := by
  rw [← h, List.getElem?_map, hx, Option.map_some]

theorem Run.exists_of_replay (acts : List Act) (g : Gateway) (P : List Moment → Gateway → Bool)
    (h : (g.replay acts).any (fun (ms, last) => P ms last) = true) :
    ∃ ms last, Run g ms last ∧ ms.map Moment.act = acts ∧ P ms last = true := by
  cases hz : g.replay acts with
  | none => simp [hz] at h
  | some z =>
      obtain ⟨ms, last⟩ := z
      rw [hz] at h
      exact ⟨ms, last, .of_replay hz, Gateway.acts_of_replay hz, h⟩

namespace Gateway

def Reaches (g g' : Gateway) : Prop := ∃ ms, Run g ms g'

theorem Reaches.refl (g : Gateway) : g.Reaches g := ⟨[], .nil⟩

theorem Reaches.trans {g g' g'' : Gateway} (h : g.Reaches g') (k : g'.Reaches g'') :
    g.Reaches g'' := by
  obtain ⟨_, h⟩ := h
  obtain ⟨_, k⟩ := k
  exact ⟨_, h.append k⟩

theorem Reaches.of_perform {g g' : Gateway} {a : Act} (h : g.perform a = some g') :
    g.Reaches g' := ⟨_, .single h⟩

section Schedule

variable {step : Gateway → Option Gateway} {g : Gateway} {p : ProcessId}

theorem reaches_exhaust (h : ∀ {g g'}, step g = some g' → g.Reaches g') (n : Nat) :
    g.Reaches (exhaust step n g) := by
  induction n generalizing g with
  | zero => exact .refl g
  | succ n ih =>
      rw [exhaust]
      cases hs : step g with
      | none => exact .refl g
      | some g' => exact (h hs).trans ih

theorem reaches_produceAll : g.Reaches (g.produceAll p) :=
  reaches_exhaust (fun h => .of_perform (a := .produce p) h) _

theorem reaches_consumeAll : g.Reaches (g.consumeAll p) :=
  (reaches_exhaust (fun h => .of_perform (a := .consume p) h) _).trans
    (.of_perform (a := .listen p) rfl)

theorem reaches_controlAll : g.Reaches (g.controlAll p) :=
  reaches_exhaust (fun h => .of_perform (a := .control p) h) _

theorem reaches_invoke : g.Reaches (g.invoke p) := by
  unfold invoke
  cases h : g.invocation? p with
  | none => exact .refl g
  | some i =>
      have hswap : g.Reaches (g.setInvocation p { i with consumerFirst := !i.consumerFirst }) :=
        .of_perform (a := .swapSides p) (by simp [perform, h])
      refine hswap.trans ?_
      dsimp only
      split
      · exact reaches_consumeAll.trans reaches_produceAll
      · exact reaches_produceAll.trans reaches_consumeAll

theorem reaches_reschedule {s : Schedule} : g.Reaches { g with schedule := s } :=
  .of_perform (a := .reschedule s) rfl

theorem reaches_wake : g.Reaches (g.wake p) := by
  unfold wake
  dsimp only
  split
  · exact reaches_reschedule
  · split
    · exact .refl g
    · exact reaches_reschedule

theorem reaches_wakeAll (ps : List ProcessId) : g.Reaches (g.wakeAll ps) := by
  induction ps generalizing g with
  | nil => exact .refl g
  | cons p ps ih => exact reaches_wake.trans ih

theorem reaches_run : g.Reaches (run p g) := by
  have hstart : g.Reaches
      { g with schedule := { g.schedule with running := some p, rewoken := false } } :=
    reaches_reschedule
  have hturn (g : Gateway) : g.Reaches (((g.controlAll p).invoke p).controlAll p) :=
    reaches_controlAll.trans (reaches_invoke.trans reaches_controlAll)
  have hstop (g : Gateway) (again : Bool) :
      let g' := { g with schedule := { g.schedule with running := none, rewoken := false } }
      g.Reaches (if again then g'.wake p else g') := by
    intro g'
    have hg' : g.Reaches g' := reaches_reschedule
    cases again
    · exact hg'
    · exact hg'.trans reaches_wake
  exact (hstart.trans (hturn _)).trans (hstop _ _)

theorem reaches_settle : g.Reaches g.settle := by
  suffices ∀ n g, Gateway.Reaches g (settleWithin n g) from this _ g
  intro n
  induction n with
  | zero => exact .refl
  | succ n ih =>
      intro g
      rw [settleWithin]
      split
      · exact .refl g
      · exact (reaches_reschedule.trans reaches_run).trans (ih _)

theorem reaches_fire : g.Reaches (fire g) :=
  reaches_reschedule.trans (reaches_wakeAll _)

theorem reaches_tick {t : Nanos} : g.Reaches { g with now := max g.now t } := by
  refine .of_perform (a := .tick (t - g.now)) ?_
  have h : g.now + (t - g.now) = max g.now t := by
    rw [Nat.add_comm, Nat.sub_add_eq_max, Nat.max_comm]
  simp only [perform, h]

theorem reaches_sleep (d : Nanos) : g.Reaches (g.sleep d) := by
  suffices ∀ n g, Gateway.Reaches g (sleepWithin (g.now + d) n g) by
    exact this _ g
  suffices ∀ target n g, Gateway.Reaches g (sleepWithin target n g) from fun n g => this _ n g
  intro target n
  induction n with
  | zero => exact .refl
  | succ n ih =>
      intro g
      rw [sleepWithin]
      split
      · split
        · exact (reaches_tick.trans (reaches_fire.trans reaches_settle)).trans (ih _)
        · exact reaches_tick
      · exact reaches_tick

end Schedule

end Gateway

end AgentGateway
