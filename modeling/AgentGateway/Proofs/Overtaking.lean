import AgentGateway.Proofs.Replies
/-!
The order in which the messages of one session take effect on the store. A loop hands a message for
a task to a process of its own, and the message after it can take effect first.
-/

namespace AgentGateway

open Gateway
open Json (Value)

namespace Workshop

variable {w w' : Workshop} {d : Deed} {id : String}

theorem Step.keeps_entry (h : Step w d w') (hs : (w.store.find? id).isSome = true) :
    (w'.store.find? id).isSome = true := by
  have hleaves := h.leaves id
  generalize w'.store.find? id = o at hleaves ⊢
  cases hleaves with
  | kept => exact hs
  | folded | finished => exact Option.isSome_map.trans hs
  | created | resumed | cancelled => rfl

end Workshop

namespace Gateway

variable {g : Gateway} {id taskId : String} {m : Message} {request : RequestId}

/-- That a request to cancel a task, under an id, passes all checks that come before the task is
looked for. -/
structure AcceptsCancel (id : String) (m : Message) (request : RequestId) (taskId : String)
    (g : Gateway) : Prop where
  named : m.method = some Method.tasksCancel.name
  identified : m.id = some request
  offered : g.settings.tasksEnabled = true
  decoded : decodeParams TaskIdParams.decode m.params = .ok ⟨taskId⟩
  admitted : ∃ r s, g.get id = .ok (r, s) ∧ (g.validate r s m).1 = .ok ()

def acceptedCancel (id : String) (m : Message) (g : Gateway) : Option (RequestId × String) := do
  let request ← m.id
  let params ← (decodeParams TaskIdParams.decode m.params).toOption
  let (r, s) ← (g.get id).toOption
  if m.method = some Method.tasksCancel.name ∧ g.settings.tasksEnabled = true ∧
      (g.validate r s m).1 = .ok () then some (request, params.id) else none

theorem acceptsCancel_of_accepted (h : g.acceptedCancel id m = some (request, taskId)) :
    g.AcceptsCancel id m request taskId := by
  obtain ⟨request', hid, h⟩ := Option.bind_eq_some_iff.mp h
  obtain ⟨params, hp, h⟩ := Option.bind_eq_some_iff.mp h
  obtain ⟨⟨r, s⟩, hget, h⟩ := Option.bind_eq_some_iff.mp h
  obtain ⟨⟨hm, hoffered, hvalid⟩, heq⟩ := Option.ite_none_right_eq_some.mp h
  cases heq
  exact ⟨hm, hid, hoffered, eq_ok_of_toOption hp, r, s, eq_ok_of_toOption hget, hvalid⟩

/-- The reply to a request to cancel a task, as the store stands. -/
def cancelReply (request : RequestId) (taskId : String) (g : Gateway) : Message :=
  match g.store.find? taskId with
  | none => .failure (some request) (Fault.taskNotFound taskId).toRpc
  | some e =>
    if e.task.state.isTerminal then
      .failure (some request) (Fault.taskNotCancelable taskId).toRpc
    else .success request (e.cancel g.timestamp).task.encode

theorem cancelReply_eq_notFound : g.cancelReply request taskId =
      .failure (some request) (Fault.taskNotFound taskId).toRpc ↔
    g.store.find? taskId = none := by
  unfold cancelReply
  cases g.store.find? taskId with
  | none => simp
  | some e =>
      cases ht : e.task.state.isTerminal <;>
        simp [ht, Message.success, Message.failure, Fault.toRpc, Fault.code]

theorem AcceptsCancel.handle (h : g.AcceptsCancel id m request taskId) :
    (g.handle id m).1 = .done (some (g.cancelReply request taskId)) := by
  obtain ⟨r, s, hget, hvalid⟩ := h.admitted
  obtain ⟨sessions, s', -, hh⟩ :=
    handle_onTasks hget hvalid h.named h.identified rfl h.offered
  refine (congrArg Prod.fst hh).trans ?_
  simp only [dispatchTask, cancelTask, h.decoded, cancelReply]
  simp only [TaskStore.cancel, timestamp, bind, Except.bind]
  cases hfind : g.store.find? taskId with
  | none => rfl
  | some e =>
      cases ht : e.task.state.isTerminal with
      | true => simp [ht, orElse, Dispatched.handling, reply]
      | false => simp [ht, orElse, Dispatched.handling, TaskEntry.cancel]

end Gateway

/-- That a loop takes a message for a task off its queue, and hands it to a process of its own. -/
def Moment.Forks (p q : ProcessId) (x : Moment) : Prop :=
  x.act = .control p ∧ q = x.before.nextProcess ∧
    ∃ l taken, x.before.process? p = some (.sessionLoop l) ∧ l.stage = .receiving ∧
      l.inbound.take? = some taken ∧ taken.1.methodName = Method.tasksSend.name

section Run

variable {g₀ g₁ g : Gateway} {ms before after : List Moment} {b c x : Moment} {p q : ProcessId}
  {id taskId : String} {m : Message} {request : RequestId} {peer : Subscriber}
  {params : TaskSendParams} {task : Task} {j k : Nat}

theorem Run.keeps_entry (hn : g₁.Numbered) (hr : Run g₁ ms g)
    (h : (g₁.store.find? taskId).isSome = true) : (g.store.find? taskId).isSome = true := by
  induction hr with
  | nil => exact h
  | snoc hrun hstep ih =>
      obtain ⟨-, d, hw, -⟩ := simulated_perform (hrun.numbered hn) hstep
      exact hw.keeps_entry ih

theorem Run.unborn (h₀ : g₀.IsNew) (hr : Run g₀ ms g) (hq : g.nextProcess ≤ q) (hb : b ∈ ms) :
    b.before.process? q = none := by
  obtain ⟨before, after, rfl⟩ := List.append_of_mem hb
  obtain ⟨hrun, hstep, hrest⟩ := hr.split rfl
  have hn := hrun.numbered h₀.numbered
  exact hn q (Nat.le_trans (((Run.single hstep).append hrest).grown hn) hq)

theorem Run.forked_later (h₀ : g₀.IsNew) (hr : Run g₀ (before ++ x :: after) g)
    (hfork : x.Forks p q) (hb : b ∈ before ++ x :: after) (hq : (b.before.process? q).isSome) :
    b ∈ after := by
  obtain ⟨hrun, -, -⟩ := hr.split rfl
  obtain ⟨-, rfl, -⟩ := hfork
  rcases List.mem_append.mp hb with hb | hb
  · simp [hrun.unborn h₀ (Nat.le_refl _) hb] at hq
  · rcases List.mem_cons.mp hb with rfl | hb
    · simp [hrun.numbered h₀.numbered _ (Nat.le_refl _)] at hq
    · exact hb

/-- A loop takes a message off its queue that is accepted as a new task, and later one that cancels
the task. The cancel is answered by the store as it stands; it is told that there is no such task
exactly if the process to which the first message was handed has not come to send it by then. -/
theorem cancel_overtakes_iff (h₀ : g₀.IsNew) (hr : Run g₀ (before ++ x :: after) g)
    (hfork : x.Forks p q) (hb : b ∈ before ++ x :: after)
    (ha : b.Accepts .tasksSend q peer params task)
    (hnew : b.before.store.find? params.id = none)
    (hc : after[k]? = some c) (htaken : c.taken? p = some (id, m))
    (hcancel : c.before.AcceptsCancel id m request params.id) :
    ∃ j, after[j]? = some b ∧ j ≠ k ∧
      c.returned? p = some (some (c.before.cancelReply request params.id)) ∧
      (c.before.cancelReply request params.id =
        .failure (some request) (Fault.taskNotFound params.id).toRpc ↔ k < j) := by
  obtain ⟨hact, id', m', hin, haccepts⟩ := ha
  obtain ⟨y, hy, -⟩ := Option.bind_eq_some_iff.mp hin
  have hlater := hr.forked_later h₀ hfork hb (Option.isSome_iff_exists.mpr ⟨y, hy⟩)
  obtain ⟨j, hj⟩ := List.mem_iff_getElem?.mp hlater
  obtain ⟨hrun, hstep, hrest⟩ := hr.split rfl
  obtain ⟨-, rfl, l, taken, hloop, -⟩ := hfork
  have hne : p ≠ x.before.nextProcess := by
    rintro rfl
    simp [hrun.numbered h₀.numbered _ (Nat.le_refl _)] at hloop
  have hn : x.after.Numbered := (hrun.snoc hstep).numbered h₀.numbered
  obtain ⟨hbrun, hbstep, -⟩ := hrest.at_index hj
  obtain ⟨hcrun, hcstep, -⟩ := hrest.at_index hc
  have hjk : j ≠ k := by
    rintro rfl
    cases hj.symm.trans hc
    obtain ⟨hactc, -⟩ := Moment.of_taken? htaken
    cases hact.symm.trans hactc
    exact hne rfl
  refine ⟨j, hj, hjk, ?_, cancelReply_eq_notFound.trans ⟨fun hnone => ?_, fun hlt => ?_⟩⟩
  · obtain ⟨-, hreturned⟩ := Moment.of_taking (hcrun.numbered hn) hcstep htaken
    rw [hreturned, hcancel.handle]
    rfl
  · -- once the task has been sent the message, the store has an entry for it
    by_contra hlt
    obtain ⟨mid, hmid⟩ := hrest.between_indices hj hc (Nat.lt_of_le_of_ne (Nat.not_lt.mp hlt) hjk)
    obtain ⟨ds, hh⟩ := ((hrun.snoc hstep).append hbrun).history h₀
    obtain ⟨i, hstarts, -⟩ := hh.start_send hbstep ⟨hact, id', m', hin, haccepts⟩
    obtain ⟨s, store, -, -, hsend⟩ := haccepts.taken
    have hid : task.id = params.id := hh.path.sound.id_of_send hsend
    have hentry : (b.after.store.find? params.id).isSome = true := by
      rw [← hid, hstarts.entry]
      rfl
    have hkept := hmid.keeps_entry ((hbrun.snoc hbstep).numbered hn) hentry
    simp [hnone] at hkept
  · -- the store would not have forgotten an entry that the cancel found
    obtain ⟨mid, hmid⟩ := hrest.between_indices hc hj hlt
    cases hfind : c.before.store.find? params.id with
    | none => rfl
    | some e =>
        have hkept := ((Run.single hcstep).append hmid).keeps_entry (hcrun.numbered hn)
          (Option.isSome_iff_exists.mpr ⟨e, hfind⟩)
        simp [hnew] at hkept

end Run

/-- What queues a message for a task and a request to cancel it, and lets the loop come first. -/
def Act.overtaking : List Act :=
  let part : Value := .ofFields [("type", .string "text"), ("text", .string "wait(1s)")]
  let message : Value := .ofFields [("role", .string "user"), ("parts", .array [part])]
  let params : Value := .ofFields [("id", .string "t"), ("message", message)]
  [.openSession ["a"] "owner" .server {}, .startLoop "a" 2,
    .feed 0 (.request (.number 1) "tasks/send" (some params)),
    .feed 0 (.request (.number 2) "tasks/cancel" (some (.ofFields [("id", .string "t")]))),
    .control 0, .control 0, .control 0, .control 1]

theorem cancel_overtakes_queued : ∃ (before after : List Moment) (x b c : Moment) (g : Gateway)
    (q : ProcessId) (peer : Subscriber) (params : TaskSendParams) (task : Task) (j k : Nat)
    (id : String) (m : Message) (request : RequestId),
    Run (Gateway.new {} []) (before ++ x :: after) g ∧ x.Forks 0 q ∧ after[j]? = some b ∧
    b.Accepts .tasksSend q peer params task ∧ b.before.store.find? params.id = none ∧
    after[k]? = some c ∧ c.taken? 0 = some (id, m) ∧
    c.before.AcceptsCancel id m request params.id ∧ k < j ∧
    c.returned? 0 = some (some
      (.failure (some request) (Fault.taskNotFound params.id).toRpc)) := by
  obtain ⟨ms, g, hr, hacts, h⟩ := Run.exists_of_replay Act.overtaking (Gateway.new {} [])
    (fun ms _ => (ms[4]?.any fun x => x.before.nextProcess = 1 ∧
        ((x.before.loop? 0).any fun l => l.stage = .receiving ∧
          l.inbound.take?.any fun taken => taken.1.methodName = Method.tasksSend.name)) ∧
      ((ms.drop 5)[1]?.any fun c => (c.taken? 0).any fun taken =>
        (c.before.acceptedCancel taken.1 taken.2).any fun found =>
          found.2 = "t" ∧ c.before.store.find? "t" = none) ∧
      (ms[7]?.any fun b => b.admits .tasksSend fun q _ params =>
        q = 1 ∧ params.id = "t" ∧ b.before.store.find? "t" = none))
    (by decide +kernel)
  obtain ⟨hx, hc, hb⟩ := of_decide_eq_true h
  obtain ⟨x, hx, h⟩ := (Option.any_eq_true ..).mp hx
  obtain ⟨hnext, hloop⟩ := of_decide_eq_true h
  obtain ⟨l, hloop, h⟩ := (Option.any_eq_true ..).mp hloop
  obtain ⟨hstage, htake⟩ := of_decide_eq_true h
  obtain ⟨taken, htake, hsend⟩ := (Option.any_eq_true ..).mp htake
  have hact : x.act = .control 0 :=
    (Option.some.inj (Moment.act_of_acts hacts hx)).symm
  have hfork : x.Forks 0 1 := ⟨hact, hnext.symm, l, taken, process?_of_loop? hloop, hstage, htake,
    of_decide_eq_true hsend⟩
  obtain ⟨c, hc, h⟩ := (Option.any_eq_true ..).mp hc
  obtain ⟨⟨id, m⟩, htaken, h⟩ := (Option.any_eq_true ..).mp h
  obtain ⟨⟨request, taskId⟩, hcancel, h⟩ := (Option.any_eq_true ..).mp h
  obtain ⟨rfl, hmissing⟩ := of_decide_eq_true h
  obtain ⟨b, hb, h⟩ := (Option.any_eq_true ..).mp hb
  obtain ⟨q, peer, params, task, ha, h⟩ := Moment.exists_of_admits h
  obtain ⟨rfl, hid, hnew⟩ := of_decide_eq_true h
  have hmem := List.mem_of_getElem? hb
  rw [← take_append_cons_drop hx] at hr hmem
  rw [← hid] at hcancel hnew hmissing
  have hcancel := acceptsCancel_of_accepted hcancel
  obtain ⟨j, hj, -, hreturned, hiff⟩ :=
    cancel_overtakes_iff ⟨{}, [], 0, rfl⟩ hr hfork hmem ha hnew hc htaken hcancel
  have hnone : c.before.cancelReply request params.id =
      .failure (some request) (Fault.taskNotFound params.id).toRpc :=
    cancelReply_eq_notFound.mpr hmissing
  exact ⟨_, _, x, b, c, g, 1, peer, params, task, j, 1, id, m, request, hr, hfork, hj, ha, hnew, hc,
    htaken, hcancel, hiff.mp hnone, hnone ▸ hreturned⟩

end AgentGateway
