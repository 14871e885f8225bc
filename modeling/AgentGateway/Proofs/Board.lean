import AgentGateway.Proofs.Sessions
import AgentGateway.Proofs.Simulation
/-!
The part of a gateway in which requests to peers wait for their responses: the sessions, the tickets
and the handles that processes hold. It is a machine of its own, and each act upon a gateway is a
few steps of it.
-/

namespace AgentGateway

open Function (update)

structure Board where
  line : SessionRef → Option Session
  waiter : Ticket → Option Waiter
  nextTicket : Ticket
  handle : ProcessId → Option Handle

/-- What a step of the board shows outside of it. -/
inductive Errand where
  | quiet
  | arrived (r : SessionRef) (m : Message)
  | hosted

namespace Errand

def arrival? : Errand → Option (SessionRef × Message)
  | .arrived r m => some (r, m)
  | _ => none

end Errand

namespace Board

def setLine (r : SessionRef) (s : Session) (b : Board) : Board :=
  { b with line := update b.line r (some s) }

def settle (t : Ticket) (state : WaiterState) (b : Board) : Board :=
  { b with waiter := update b.waiter t ((b.waiter t).map fun w => { w with state }) }

def settleAll (ts : List Ticket) (state : WaiterState) (b : Board) : Board :=
  ts.foldl (fun b t => b.settle t state) b

def dropTicket (t : Ticket) (b : Board) : Board := { b with waiter := update b.waiter t none }

def issue (holder : Option ProcessId) (b : Board) : Board :=
  { b with
    nextTicket := b.nextTicket + 1
    waiter := fun t => (b.waiter t).or (if t = b.nextTicket then some { holder } else none) }

def take (r : SessionRef) (id : RequestId) (state : WaiterState) (b : Board) : Board :=
  match (b.line r).bind (Session.takePending? id) with
  | none => b
  | some (e, s) => (b.setLine r s).settle e.ticket state

def cancelPending (r : SessionRef) (id : RequestId) (b : Board) : Board := b.take r id .cancelled

def resolve (r : SessionRef) (m : Message) (b : Board) : Board :=
  m.id.elim b fun id => b.take r id (.answered m)

def dropHandle (h : Handle) (b : Board) : Board :=
  (b.cancelPending h.session h.id).dropTicket h.ticket

inductive Step : Board → Errand → Board → Prop
  | carried {b : Board} {line : SessionRef → Option Session} :
      (∀ r, Gateway.CarriedTo (b.line r) (line r)) → Step b .quiet { b with line }
  | asked {b : Board} {p : ProcessId} {r : SessionRef} {s s' : Session} {method : String} :
      b.handle p = none → b.line r = some s →
      s.takeRequestId.2.register ⟨s.takeRequestId.1, method, b.nextTicket⟩ = .ok s' →
      Step b .quiet { (b.issue (some p)).setLine r s' with
        handle := update b.handle p (some ⟨r, s.takeRequestId.1, b.nextTicket⟩) }
  | dropped {b : Board} {p : ProcessId} {h : Handle} : b.handle p = some h →
      Step b .quiet { b.dropHandle h with handle := update b.handle p none }
  | resolved {b : Board} (r : SessionRef) (m : Message) : Step b (.arrived r m) (b.resolve r m)
  | closed {b : Board} {r : SessionRef} {s s' : Session} {ts : List Ticket} :
      b.line r = some s → s.close = some (ts, s') →
      Step b .quiet ((b.setLine r s').settleAll ts .cancelled)
  | registered {b : Board} {r : SessionRef} {s s' : Session} {id : RequestId} {method : String} :
      b.line r = some s → s.register ⟨id, method, b.nextTicket⟩ = .ok s' →
      Step b .hosted ((b.issue none).setLine r s')
  | withdrawn {b : Board} (r : SessionRef) (id : RequestId) :
      Step b .hosted (b.cancelPending r id)

inductive Path (b : Board) : List Errand → Board → Prop
  | nil : Path b [] b
  | snoc {es : List Errand} {b₁ b₂ : Board} {e : Errand} :
      Path b es b₁ → Step b₁ e b₂ → Path b (es ++ [e]) b₂

variable {b b₁ b₂ : Board} {es es' : List Errand} {e : Errand}

theorem Path.single (h : Step b e b₁) : Path b [e] b₁ := .snoc .nil h

theorem Path.append (h : Path b es b₁) (k : Path b₁ es' b₂) : Path b (es ++ es') b₂ := by
  induction k with
  | nil => simpa using h
  | snoc _ hstep ih =>
      rw [← List.append_assoc]
      exact .snoc ih hstep

end Board

namespace Gateway

def held? (p : ProcessId) (g : Gateway) : Option Handle := (g.process? p).bind Process.handle?

/-- The board of a gateway, with handles of one's own choice. -/
def boardWith (handle : ProcessId → Option Handle) (g : Gateway) : Board where
  line r := g.session? r
  waiter t := g.waiter? t
  nextTicket := g.nextTicket
  handle := handle

def board (g : Gateway) : Board := g.boardWith fun p => g.held? p

variable {g g' g₁ : Gateway} {p : ProcessId} {r : SessionRef} {s s' : Session}
  {H : ProcessId → Option Handle} {t : Ticket} {a : Act}

theorem boardWith_of_desk (h : g'.desk = g.desk) : g'.boardWith H = g.boardWith H := by
  have hs : (fun r => g'.session? r) = fun r => g.session? r := by
    funext r
    exact session?_of_desk h
  have hw : g'.waiters = g.waiters := (congrArg Desk.waiters h :)
  have ht : g'.nextTicket = g.nextTicket := (congrArg Desk.nextTicket h :)
  simp only [boardWith, waiter?, hs, hw, ht]

theorem boardWith_setSession (hs : g.session? r = some s) :
    (g.setSession r s').boardWith H = (g.boardWith H).setLine r s' := by
  have hr := lt_of_session? hs
  simp only [boardWith, Board.setLine]
  congr 1
  funext q
  simp only [session?, setSession, List.getElem?_set, Function.update_apply]
  by_cases hq : q = r
  · simp [hq, hr]
  · simp [hq, Ne.symm hq]

theorem boardWith_settleTicket {state : WaiterState} :
    (g.settleTicket t state).2.boardWith H = (g.boardWith H).settle t state := by
  have hwaiters : ∀ u, (g.settleTicket t state).2.waiter? u =
      if u = t then (g.waiter? t).map fun w => { w with state } else g.waiter? u := by
    intro u
    unfold settleTicket
    cases hw : g.waiter? t with
    | none =>
        dsimp only
        split
        · rename_i h
          rw [h, hw]
          rfl
        · rfl
    | some w =>
        have hd (ps : List ProcessId) (g : Gateway) : (g.wakeAll ps).waiters = g.waiters :=
          (congrArg Desk.waiters (desk_wakeAll ps) :)
        dsimp only
        rw [waiter?, hd]
        have hmap := lookup_map_key (fun w : Waiter => { w with state }) t u g.waiters
        rw [hmap]
        split
        · rename_i h
          rw [h]
          exact congrArg _ hw
        · rfl
  have hline : ∀ q, (g.settleTicket t state).2.session? q = g.session? q := by
    intro q
    unfold settleTicket
    split
    · rfl
    · exact (session?_of_desk (desk_wakeAll _)).trans rfl
  have hnext : (g.settleTicket t state).2.nextTicket = g.nextTicket := by
    unfold settleTicket
    split
    · rfl
    · exact (congrArg Desk.nextTicket (desk_wakeAll _) :)
  simp only [boardWith, Board.settle, hline, hnext]
  congr 1
  funext u
  rw [hwaiters, Function.update_apply]

theorem boardWith_settleAll {state : WaiterState} (ts : List Ticket) (g : Gateway) :
    (ts.foldl (fun g t => (g.settleTicket t state).2) g).boardWith H =
      (g.boardWith H).settleAll ts state := by
  induction ts generalizing g with
  | nil => rfl
  | cons t ts ih =>
      rw [List.foldl_cons, ih, boardWith_settleTicket]
      rfl

theorem boardWith_dropTicket : (g.dropTicket t).boardWith H = (g.boardWith H).dropTicket t := by
  simp only [boardWith, Board.dropTicket]
  congr 1
  funext u
  rw [Function.update_apply]
  exact lookup_filter_key t u g.waiters

theorem boardWith_takeTicket {holder : Option ProcessId} :
    (g.takeTicket holder).2.boardWith H = (g.boardWith H).issue holder := by
  simp only [boardWith, Board.issue]
  congr 1
  funext u
  simp only [waiter?, takeTicket, List.lookup_append]
  congr 1
  rw [lookup_cons_key]
  rfl

theorem boardWith_cancelPending {id : RequestId} :
    (g.cancelPending r id).2.boardWith H = (g.boardWith H).cancelPending r id := by
  unfold cancelPending Board.cancelPending Board.take
  have hline : (g.boardWith H).line r = g.session? r := rfl
  rw [hline]
  cases hs : g.session? r with
  | none => rfl
  | some s =>
      cases ht : s.takePending? id with
      | none => simp [ht]
      | some x =>
          obtain ⟨e, s'⟩ := x
          simp only [Option.bind_some, ht]
          rw [boardWith_settleTicket, boardWith_setSession hs]

theorem boardWith_resolve {m : Message} :
    (g.resolve r m).2.boardWith H = (g.boardWith H).resolve r m := by
  unfold resolve Board.resolve
  have hline : (g.boardWith H).line r = g.session? r := rfl
  cases hid : m.id with
  | none => rfl
  | some id =>
      rw [Option.elim_some, Board.take, hline]
      cases hs : g.session? r with
      | none => rfl
      | some s =>
          cases ht : s.takePending? id with
          | none => simp [ht]
          | some x =>
              obtain ⟨e, s'⟩ := x
              simp only [Option.bind_some, ht]
              rw [boardWith_settleTicket, boardWith_setSession hs]

theorem boardWith_dropHandle {h : Handle} :
    (g.dropHandle h).boardWith H = (g.boardWith H).dropHandle h := by
  rw [dropHandle, boardWith_dropTicket, boardWith_cancelPending, Board.dropHandle]

theorem boardWith_carried (h : Carried g g') :
    g'.boardWith H = { g.boardWith H with line := fun r => g'.session? r } := by
  simp only [boardWith, waiter?, h.waiters, h.nextTicket]

theorem Carried.step (h : Carried g g') :
    Board.Step (g.boardWith H) .quiet (g'.boardWith H) := by
  rw [boardWith_carried h]
  exact .carried h.sessions

end Gateway

end AgentGateway
