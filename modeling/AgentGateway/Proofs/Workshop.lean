import AgentGateway.Proofs.Sending
import Mathlib.Logic.Function.Basic
/-!
The part of a gateway in which tasks are worked on: the store, the tokens and the invocations. It is
a machine of its own, and each act upon a gateway is a step of it or leaves it as it is.
-/

namespace AgentGateway

namespace Invocation

def plain (i : Invocation) : Invocation := { i with consumerFirst := false, listening := false }

def onward (i : Invocation) (u : Update) : ConsumerStage :=
  match i.subscriber with
  | none => .receiving
  | some s => .forwarding (.fresh (u.toMessage s.request))

variable {i : Invocation}

@[simp] theorem plain_taskId : i.plain.taskId = i.taskId := rfl

@[simp] theorem plain_token : i.plain.token = i.token := rfl

@[simp] theorem plain_producer : i.plain.producer = i.producer := rfl

@[simp] theorem plain_queue : i.plain.queue = i.queue := rfl

@[simp] theorem plain_consumer : i.plain.consumer = i.consumer := rfl

@[simp] theorem plain_subscriber : i.plain.subscriber = i.subscriber := rfl

@[simp] theorem plain_ending? : i.plain.ending? = i.ending? := rfl

@[simp] theorem plain_onward {u : Update} : i.plain.onward u = i.onward u := rfl

end Invocation

namespace Handling

def invocation? : Handling → Option Invocation
  | .running i _ _ => some i
  | _ => none

end Handling

namespace Process

def ownToken? : Process → Option Token
  | .pages w => some w.token
  | .sweeper s => some s.token
  | _ => none

@[simp] theorem invocation?_message (h : Handling) :
    (Process.message h).invocation? = h.invocation? := by cases h <;> rfl

@[simp] theorem invocation?_handling (id : String) (h : Handling) :
    (Process.answer id (.handling h)).invocation? = h.invocation? := by cases h <;> rfl

@[simp] theorem invocation?_answering (l : SessionLoop) (h : Handling) :
    (Process.sessionLoop { l with stage := .answering (.handling h) }).invocation? =
      h.invocation? := by cases h <;> rfl

@[simp] theorem invocation?_inbound {l : SessionLoop} {inbound : Channel Message} :
    (Process.sessionLoop { l with inbound }).invocation? = (Process.sessionLoop l).invocation? := by
  obtain ⟨sessionId, inbound', stage⟩ := l
  rcases stage with _ | ((_ | _ | _) | _ | _ | _) | _ <;> rfl

theorem invocation?_withInvocation (i : Invocation) (x : Process) :
    (x.withInvocation i).invocation? = x.invocation?.map fun _ => i := by
  unfold withInvocation
  split
  · rfl
  · rfl
  · rename_i l
    obtain ⟨sessionId, inbound, stage⟩ := l
    rcases stage with _ | ((_ | _ | _) | _ | _ | _) | _ <;> rfl
  · rfl
  · rename_i hm ha hl hs
    have hnone : x.invocation? = none := by
      unfold invocation?
      split
      · exact absurd rfl (hm _ _ _)
      · exact absurd rfl (ha _ _ _ _)
      · exact absurd rfl (hl _)
      · exact absurd rfl (hs _)
      · rfl
    rw [hnone]
    rfl

theorem ownToken?_withInvocation (i : Invocation) (x : Process) :
    (x.withInvocation i).ownToken? = x.ownToken? := by
  unfold withInvocation
  split
  · rfl
  · rfl
  · rename_i l
    obtain ⟨sessionId, inbound, stage⟩ := l
    rcases stage with _ | ((_ | _ | _) | _ | _ | _) | _ <;> rfl
  · rfl
  · rfl

theorem invocation?_settle (poll : ToolPoll) (x : Process) :
    (x.settle poll).invocation? = x.invocation? := by
  have hsettled (h : Handling) : (h.settle poll).invocation? = h.invocation? := by
    unfold Handling.settle
    split <;> rfl
  unfold settle
  split
  · rw [invocation?_message, invocation?_message, hsettled]
  · rw [invocation?_handling, invocation?_handling, hsettled]
  · rename_i l
    obtain ⟨sessionId, inbound, stage⟩ := l
    split
    · rename_i h hstage
      obtain rfl : stage = .answering (.handling h) := hstage
      rw [invocation?_answering, hsettled]
      cases h <;> rfl
    · rfl
  · rfl

theorem ownToken?_settle (poll : ToolPoll) (x : Process) :
    (x.settle poll).ownToken? = x.ownToken? := by
  unfold settle
  split
  · rfl
  · rfl
  · split <;> rfl
  · rfl

end Process

structure Workshop where
  store : TaskStore
  signalled : List Token
  nextToken : Token
  work : ProcessId → Option Invocation
  watch : ProcessId → Option Token

inductive Deed where
  | silent
  | began (p : ProcessId) (subscriber : Option Subscriber) (k : Token) (task : Task)
  | produced (k : Token) (u : Option Update)
  | told (p : ProcessId) (m : Message)
  | lost (p : ProcessId) (k : Token)
  | concluded (p : ProcessId)

namespace Deed

def emissions (k : Token) : Deed → List Update
  | .produced k' u => if k' = k then u.toList else []
  | _ => []

def messages (p : ProcessId) : Deed → List Message
  | .told q m => if q = p then [m] else []
  | _ => []

end Deed

namespace Workshop

open Function (update)

def signal (k : Token) (w : Workshop) : Workshop :=
  if k ∈ w.signalled then w else { w with signalled := k :: w.signalled }

def assign (p : ProcessId) (i : Option Invocation) (w : Workshop) : Workshop :=
  { w with work := update w.work p i }

inductive Step : Workshop → Deed → Workshop → Prop
  | rest {w} : Step w .silent w
  | watched {w} (p) : w.work p = none →
      Step w .silent
        { w with nextToken := w.nextToken + 1, watch := update w.watch p (some w.nextToken) }
  | halted {w p k} : w.watch p = some k → Step w .silent (w.signal k)
  | dismissed {w} (p) :
      Step w .silent { w.assign p none with watch := update w.watch p none }
  | began {w p params headers timestamp delay subscriber task store} :
      w.work p = none → w.watch p = none →
      w.store.send params headers w.nextToken timestamp = .ok (task, store) →
      Step w (.began p subscriber w.nextToken task) { w with
        store, nextToken := w.nextToken + 1
        work := update w.work p (some (.start delay task w.nextToken subscriber)) }
  | produced {w p i around u producer} :
      w.work p = some i → (around.cancelled = true ↔ i.token ∈ w.signalled) →
      around.hasTaker = true → i.producer.advance? i.taskId around = some (u, producer) →
      Step w (.produced i.token u)
        (w.assign p (some { i with producer, queue := i.queue ++ u.toList }))
  | took {w p i u rest timestamp} :
      w.work p = some i → i.consumer = .receiving → i.queue = u :: rest →
      Step w .silent { w.assign p (some { i with queue := rest, consumer := i.onward u }) with
        store := w.store.update i.taskId u timestamp }
  | forwarded {w p i d} :
      w.work p = some i → i.consumer = .forwarding d →
      Step w (if i.subscriber.isSome then .told p d.message else .silent)
        (w.assign p (some { i with consumer := .receiving }))
  | waited {w p i d d'} :
      w.work p = some i → i.consumer = .forwarding d → d'.message = d.message →
      Step w .silent (w.assign p (some { i with consumer := .forwarding d' }))
  | lost {w p i d} :
      w.work p = some i → i.consumer = .forwarding d → i.subscriber.isSome →
      Step w (.lost p i.token) ((w.signal i.token).assign p (some { i with consumer := .stopped }))
  | drained {w p i} :
      w.work p = some i → i.consumer = .receiving → i.queue = [] → i.producer.ending?.isSome →
      Step w .silent (w.assign p (some { i with consumer := .stopped }))
  | concluded {w p i ending timestamp} :
      w.work p = some i → i.ending? = some ending →
      Step w (.concluded p)
        { w.assign p none with store := (w.store.finish i.taskId ending timestamp).2 }
  | cancelled {w id timestamp task token store} :
      w.store.cancel id timestamp = .ok (task, token, store) →
      Step w .silent { token.elim w (fun k => w.signal k) with store }

end Workshop

namespace Gateway

open Function (update)

def Numbered (g : Gateway) : Prop := ∀ q, g.nextProcess ≤ q → g.process? q = none

def workshop (g : Gateway) : Workshop where
  store := g.store
  signalled := g.signalled
  nextToken := g.nextToken
  work p := (g.invocation? p).map Invocation.plain
  watch p := (g.process? p).bind Process.ownToken?

variable {g g' : Gateway} {p q : ProcessId} {x y : Process} {i : Invocation}

theorem workshop_of_inner (h : g'.inner = g.inner) : g'.workshop = g.workshop := by
  unfold workshop invocation?
  simp only [store_of_inner h, signalled_of_inner h, nextToken_of_inner h, process?_of_inner h]

theorem process?_setProcess :
    (g.setProcess p x).process? q =
      if q = p then (g.process? p).map (fun _ => x) else g.process? q := by
  unfold process? setProcess
  dsimp only
  rw [lookup_map_key (fun _ => x)]
  split
  · rename_i h
    rw [h]
  · rfl

theorem process?_setInvocation :
    (g.setInvocation p i).process? q =
      if q = p then (g.process? p).map (Process.withInvocation i) else g.process? q := by
  unfold process? setInvocation
  dsimp only
  rw [lookup_map_key (Process.withInvocation i)]
  split
  · rename_i h
    rw [h]
  · rfl

theorem process?_removeProcess :
    (g.removeProcess p).process? q = if q = p then none else g.process? q :=
  lookup_filter_key p q g.processes

theorem process?_settleTool {poll : ToolPoll} :
    (g.settleTool p poll).process? q =
      if q = p then (g.process? p).map (Process.settle poll) else g.process? q := by
  unfold settleTool
  cases hx : g.process? p with
  | none =>
      split
      · rename_i h
        rw [h]
        exact hx
      · rfl
  | some x =>
      rw [Option.elim_some, process?_of_inner inner_wake, process?_setProcess, hx]
      rfl

theorem process?_spawn (hn : g.Numbered) :
    (g.spawn x).2.process? q = if q = g.nextProcess then some x else g.process? q := by
  have hfree : g.processes.lookup g.nextProcess = none := hn _ (Nat.le_refl _)
  exact (process?_of_inner inner_wake).trans (lookup_snoc hfree)

theorem workshop_setProcess (hx : g.process? p = some x) :
    (g.setProcess p y).workshop = { g.workshop with
      work := update g.workshop.work p (y.invocation?.map Invocation.plain)
      watch := update g.workshop.watch p y.ownToken? } := by
  unfold workshop invocation?
  congr 1
  · funext q
    rw [process?_setProcess]
    by_cases hq : q = p
    · subst hq
      simp [hx]
    · simp [hq]
  · funext q
    rw [process?_setProcess]
    by_cases hq : q = p
    · subst hq
      simp [hx]
    · simp [hq]

theorem workshop_setProcess_work (hx : g.process? p = some x) (ht : y.ownToken? = x.ownToken?) :
    (g.setProcess p y).workshop = g.workshop.assign p (y.invocation?.map Invocation.plain) := by
  have hwatch : g.workshop.watch p = y.ownToken? := by simp [workshop, hx, ht]
  rw [workshop_setProcess hx, ← hwatch, Function.update_eq_self, Workshop.assign]

theorem workshop_setProcess_same (hx : g.process? p = some x)
    (hi : y.invocation? = x.invocation?) (ht : y.ownToken? = x.ownToken?) :
    (g.setProcess p y).workshop = g.workshop := by
  have hwork : g.workshop.work p = y.invocation?.map Invocation.plain := by
    simp [workshop, invocation?, hx, hi]
  rw [workshop_setProcess_work hx ht, Workshop.assign, ← hwork, Function.update_eq_self]

theorem workshop_setInvocation {j : Invocation} (hi : g.invocation? p = some j) :
    (g.setInvocation p i).workshop = g.workshop.assign p (some i.plain) := by
  obtain ⟨x, hx, hj⟩ := Option.bind_eq_some_iff.mp hi
  have hstep : (g.setInvocation p i).workshop = (g.setProcess p (x.withInvocation i)).workshop := by
    have hp (q : ProcessId) :
        (g.setInvocation p i).process? q = (g.setProcess p (x.withInvocation i)).process? q := by
      rw [process?_setInvocation, process?_setProcess, hx]
      rfl
    unfold workshop invocation?
    simp only [hp]
    rfl
  rw [hstep, workshop_setProcess hx, Process.invocation?_withInvocation,
    Process.ownToken?_withInvocation, hj]
  have hwatch : g.workshop.watch p = x.ownToken? := by simp [workshop, hx]
  rw [← hwatch, Function.update_eq_self]
  rfl

theorem workshop_removeProcess :
    (g.removeProcess p).workshop =
      { g.workshop.assign p none with watch := update g.workshop.watch p none } := by
  unfold workshop Workshop.assign invocation?
  congr 1
  · funext q
    rw [process?_removeProcess]
    by_cases hq : q = p
    · subst hq
      simp
    · simp [hq]
  · funext q
    rw [process?_removeProcess]
    by_cases hq : q = p
    · subst hq
      simp
    · simp [hq]

theorem workshop_spawn (hn : g.Numbered) :
    (g.spawn x).2.workshop = { g.workshop with
      work := update g.workshop.work g.nextProcess (x.invocation?.map Invocation.plain)
      watch := update g.workshop.watch g.nextProcess x.ownToken? } := by
  have hinner : (g.spawn x).2.inner =
      { g with nextProcess := g.nextProcess + 1
               processes := g.processes ++ [(g.nextProcess, x)] }.inner := inner_wake
  unfold workshop invocation?
  rw [store_of_inner hinner, signalled_of_inner hinner, nextToken_of_inner hinner]
  congr 1
  · funext q
    rw [process?_spawn hn]
    by_cases hq : q = g.nextProcess
    · subst hq
      simp
    · simp [hq]
  · funext q
    rw [process?_spawn hn]
    by_cases hq : q = g.nextProcess
    · subst hq
      simp
    · simp [hq]

theorem workshop_spawn_idle (hn : g.Numbered) (hi : x.invocation? = none)
    (ht : x.ownToken? = none) : (g.spawn x).2.workshop = g.workshop := by
  have hfree : g.process? g.nextProcess = none := hn _ (Nat.le_refl _)
  have hwork : g.workshop.work g.nextProcess = none := by simp [workshop, invocation?, hfree]
  have hwatch : g.workshop.watch g.nextProcess = none := by simp [workshop, hfree]
  rw [workshop_spawn hn, hi, ht, ← hwatch, Function.update_eq_self]
  change { g.workshop with work := update g.workshop.work g.nextProcess none } = _
  rw [← hwork, Function.update_eq_self]

theorem workshop_signal {k : Token} : (g.signal k).workshop = g.workshop.signal k := by
  unfold signal Workshop.signal isSignalled
  by_cases hk : k ∈ g.signalled
  · have hk' : k ∈ g.workshop.signalled := hk
    simp [hk, hk']
  · have hk' : k ∉ g.workshop.signalled := hk
    simp only [List.contains_eq_mem, hk, hk', decide_false, Bool.false_eq_true, if_false]
    exact workshop_of_inner (inner_wakeAll _)

end Gateway

end AgentGateway
