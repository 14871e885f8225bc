import AgentGateway.Proofs.Fulfilment
import AgentGateway.Proofs.Release
import AgentGateway.Proofs.Streaming

namespace AgentGateway

open Json (Value)

/-- That a message is the reply to a request: it carries its id, and either a result or an error. -/
structure Message.Answers (request : RequestId) (m : Message) : Prop where
  id : m.id = some request
  method : m.method = none
  exclusive : m.result.isSome = !m.error.isSome

theorem Message.answers_success {request : RequestId} {v : Value} :
    (success request v).Answers request := ⟨rfl, rfl, rfl⟩

theorem Message.answers_failure {request : RequestId} {e : RpcError} :
    (failure (some request) e).Answers request := ⟨rfl, rfl, rfl⟩

theorem Method.name_of_ofName? {name : String} {method : Method}
    (h : ofName? name = some method) : name = method.name := by
  have hfound : method.name = name := by simpa using List.find?_some h
  exact hfound.symm

namespace Dispatched

def IsSettled : Dispatched → Prop
  | .result _ | .fault _ => True
  | .running _ _ | .streaming | .calling => False

variable {d : Dispatched} {request : RequestId}

theorem IsSettled.answers (h : d.IsSettled) :
    ∃ reply, d.handling request = .done (some reply) ∧ reply.Answers request := by
  cases d with
  | result v => exact ⟨_, rfl, Message.answers_success⟩
  | fault f => exact ⟨_, rfl, Message.answers_failure⟩
  | running | streaming | calling => exact h.elim

end Dispatched

namespace Gateway

variable {g g' : Gateway} {r : SessionRef} {s : Session} {params : Option Value} {name : String}
  {method : Method} {request : RequestId} {id : String} {m : Message} {n : Option Nat}
  {e : Ending} {i : Invocation}

theorem isSettled_answer {x : Except Fault Value} : (answer x).IsSettled := by
  cases x <;> trivial

theorem isSettled_orElse {x : Except Fault (Value × Gateway)} : (g.orElse x).1.IsSettled := by
  cases x <;> trivial

theorem isSettled_or_calls : (g.dispatchTool method r s params).1.IsSettled ∨
    (g.dispatchTool method r s params).1 = .calling ∧ method = .toolsCall := by
  unfold dispatchTool
  split
  case h_1 => exact .inl isSettled_answer
  case h_2 =>
    cases g.callTool s params with
    | pending => exact .inr ⟨rfl, rfl⟩
    | ok | error => exact .inl trivial
  case h_11 => exact .inl isSettled_orElse
  case h_4 | h_7 => exact .inl (by split <;> trivial)
  all_goals exact .inl trivial

theorem isSettled_or_opens : (g.dispatch name r s request params).1.IsSettled ∨
    ((g.dispatch name r s request params).1 = .calling ∧ name = Method.toolsCall.name) ∨
    ∃ method : Method, name = method.name ∧ method.onTasks = true ∧
      g.settings.tasksEnabled = true := by
  unfold dispatch
  split
  · exact .inl (by split <;> trivial)
  · rename_i method hname
    split
    · rename_i htasks
      by_cases hoffered : g.settings.tasksEnabled = true
      · exact .inr (.inr ⟨method, Method.name_of_ofName? hname, htasks, hoffered⟩)
      · exact .inl (by simp [hoffered, Dispatched.IsSettled])
    · split
      · exact .inl isSettled_orElse
      · split
        · exact .inl trivial
        · split
          · exact .inl trivial
          · split
            · exact .inl trivial
            · refine isSettled_or_calls.imp_right fun ⟨hcalling, hcall⟩ => .inl ⟨hcalling, ?_⟩
              exact hcall ▸ Method.name_of_ofName? hname

theorem of_beginTask {subscriber : Option Subscriber}
    (h : g.beginTask s params subscriber = .ok (i, n, g')) : ∃ p task store,
      decodeParams TaskSendParams.decode params = .ok p ∧
      g.store.send p s.context g.nextToken g.timestamp = .ok (task, store) := by
  obtain ⟨p, hp, h⟩ := bind_eq_ok.mp h
  obtain ⟨⟨task, store⟩, hsend, -⟩ := bind_eq_ok.mp h
  exact ⟨p, task, store, hp, hsend⟩

theorem isSettled_or_begins : (g.dispatchTask method r s request params).1.IsSettled ∨
    (method = .tasksSend ∨ method = .tasksSendSubscribe) ∧ ∃ p task store,
      decodeParams TaskSendParams.decode params = .ok p ∧
      g.store.send p s.context g.nextToken g.timestamp = .ok (task, store) := by
  unfold dispatchTask
  split
  · split
    · rename_i h
      exact .inr ⟨.inl rfl, of_beginTask h⟩
    · exact .inl trivial
  · split
    · rename_i h
      exact .inr ⟨.inr rfl, of_beginTask h⟩
    · exact .inl trivial
  · exact .inl isSettled_answer
  · exact .inl isSettled_orElse

theorem answers_or_accepts (hm : m.method = some name) (hid : m.id = some request) :
    (∃ reply, (g.handle id m).1 = .done (some reply) ∧ reply.Answers request) ∨
    ((g.handle id m).1 = .calling request .pending ∧ name = Method.toolsCall.name) ∨
    ∃ method peer p task, (method = .tasksSend ∨ method = .tasksSendSubscribe) ∧
      peer.request = request ∧ g.Accepts method id m peer p task := by
  cases hget : g.get id with
  | error e =>
      have hreq : m.isRequest = true := by simp [Message.isRequest, hm, hid]
      exact .inl ⟨.failure (some request) (Fault.invalidRequest e.message).toRpc,
        by simp [handle, hget, hreq, hid], Message.answers_failure⟩
  | ok x =>
      obtain ⟨r, s⟩ := x
      cases hv : (g.validate r s m).1 with
      | error rejection =>
          refine .inl ⟨.failure (some request) rejection.toFault.toRpc, ?_,
            Message.answers_failure⟩
          unfold handle
          rw [hget]
          dsimp only
          generalize g.validate r s m = x at hv
          obtain ⟨result, g₁⟩ := x
          obtain rfl : result = .error rejection := hv
          simp [hid, reply]
      | ok _ =>
          obtain ⟨s₁, hvalid⟩ : ∃ s₁, g.validate r s m = (.ok (), g.setSession r s₁) :=
            ⟨_, Prod.ext hv rfl⟩
          have hh := handle_valid hget hvalid hm hid
          have settled {d : Dispatched} (hd : (g.handle id m).1 = d.handling request)
              (h : d.IsSettled) :
              ∃ reply, (g.handle id m).1 = .done (some reply) ∧ reply.Answers request := by
            rw [hd]
            exact h.answers
          have hopen : ((g.setSession r s₁).dispatch name r s₁ request m.params).1.IsSettled ∨ _ :=
            isSettled_or_opens
          rcases hopen with hsettled | ⟨hcalling, hname⟩ | ⟨method, rfl, htasks, hoffered⟩
          · exact .inl (settled (congrArg Prod.fst hh) hsettled)
          · refine .inr (.inl ⟨(congrArg Prod.fst hh).trans ?_, hname⟩)
            exact congrArg (Dispatched.handling request) hcalling
          · obtain ⟨sessions, s', hcontext, hd⟩ := handle_onTasks hget hv hm hid htasks hoffered
            have hbegins : ({ g with sessions }.dispatchTask method r s' request
                m.params).1.IsSettled ∨ _ := isSettled_or_begins
            rcases hbegins with hsettled | ⟨hmethod, p, task, store, hp, hsend⟩
            · exact .inl (settled (congrArg Prod.fst hd) hsettled)
            · exact .inr (.inr ⟨method, ⟨r, request⟩, p, task, hmethod, rfl, hm, hid, hoffered, hp, s,
                store, hget, hv, hcontext ▸ hsend⟩)

theorem handle_unasked (id : String) (hm : m.isRequest = false) :
    ∃ reply, (g.handle id m).1 = .done reply := by
  unfold handle
  split
  · exact ⟨_, rfl⟩
  · split
    · exact ⟨_, rfl⟩
    · unfold handleValid
      split
      · exact ⟨_, rfl⟩
      · exact ⟨_, rfl⟩
      · rename_i hmethod hid
        simp [Message.isRequest, hmethod, hid] at hm

theorem of_calling {poll : ToolPoll} (h : (g.handle id m).1 = .calling request poll) :
    m.id = some request ∧ m.method = some Method.toolsCall.name := by
  cases hm : m.isRequest with
  | false =>
      obtain ⟨reply, hdone⟩ := handle_unasked (g := g) id hm
      cases h.symm.trans hdone
  | true =>
      obtain ⟨hmethod, hid⟩ := Bool.and_eq_true_iff.mp hm
      obtain ⟨name, hmethod⟩ := Option.isSome_iff_exists.mp hmethod
      obtain ⟨request', hid⟩ := Option.isSome_iff_exists.mp hid
      rcases answers_or_accepts hmethod hid with ⟨reply, hdone, -⟩ | ⟨hcalling, rfl⟩ |
        ⟨method, peer, params, task, rfl | rfl, -, haccepts⟩
      · cases h.symm.trans hdone
      · cases h.symm.trans hcalling
        exact ⟨hid, hmethod⟩
      · obtain ⟨sessions, headers, store, -, hhandle⟩ := haccepts.send
        rw [hhandle] at h
        cases h
      · obtain ⟨sessions, headers, store, -, hhandle⟩ := haccepts.subscribe
        rw [hhandle] at h
        cases h

theorem answers_reply? {poll : ToolPoll} {reply : Message} (h : poll.reply? request = some reply) :
    reply.Answers request := by
  cases poll with
  | ok result =>
      cases h
      exact Message.answers_success
  | error f =>
      cases h
      exact Message.answers_failure
  | pending => cases h

theorem answers_replyTo {taskId : String} : (g.replyTo request taskId n e).Answers request := by
  unfold replyTo
  split
  · exact Message.answers_failure
  · exact Message.answers_failure
  · split
    · exact Message.answers_success
    · exact Message.answers_failure

end Gateway

namespace Moment

def taken? (q : ProcessId) (m : Moment) : Option (String × Message) :=
  match m.act with
  | .control p => if p = q then (m.before.process? q).bind Process.incoming? else none
  | _ => none

def returned? (q : ProcessId) (m : Moment) : Option (Option Message) :=
  match m.act with
  | .control p =>
    if p = q then ((m.after.process? q).bind Process.handling?).bind Handling.reply? else none
  | _ => none

variable {g g' : Gateway} {a : Act} {p q : ProcessId}

theorem of_taken? {m : Moment} {id : String} {msg : Message} (h : m.taken? q = some (id, msg)) :
    m.act = .control q ∧ (m.before.process? q).bind Process.incoming? = some (id, msg) := by
  unfold taken? at h
  split at h
  · rename_i hact
    split at h
    · rename_i heq
      exact ⟨heq ▸ hact, h⟩
    · cases h
  · cases h

theorem returned?_control : returned? q ⟨g, .control q, g'⟩ =
    ((g'.process? q).bind Process.handling?).bind Handling.reply? := if_pos rfl

theorem returned?_other (h : a ≠ .control q) : returned? q ⟨g, a, g'⟩ = none := by
  cases a with
  | control p => exact if_neg fun heq => h (congrArg Act.control heq)
  | _ => rfl

end Moment

namespace Gateway

variable {g g' g₁ : Gateway} {q : ProcessId} {h k : Handling} {a b : Answering} {id : String}
  {l l' : SessionLoop} {request : RequestId} {n : Option Nat} {i : Invocation}

def Works (q : ProcessId) (request : RequestId) (g : Gateway) : Prop :=
  ((g.process? q).bind Process.handling?).bind Handling.request? = some request

def AwaitsTool (p : ProcessId) (g : Gateway) : Prop :=
  ∃ request, (g.process? p).bind Process.handling? = some (.calling request .pending)

inductive Leads (g : Gateway) : Option Handling → Handling → Prop
  | arrived {id m} : Leads g none (.start id m)
  | taken {id m} : Leads g (some (.start id m)) (g.handle id m).1
  | returned {i request n e} : i.ending? = some e → Leads g (some (.running i request n))
      (.done (some ((g.concludeTask i e).replyTo request i.taskId n e)))
  | answered {request poll reply} : ToolPoll.reply? request poll = some reply →
      Leads g (some (.calling request poll)) (.done (some reply))

theorem leads_handle? (hstep : g.handle? h = some (k, g₁)) : Leads g (some h) k := by
  cases h with
  | start id m =>
      obtain rfl : (g.handle id m).1 = k := congrArg Prod.fst (Option.some.inj hstep)
      exact .taken
  | running i request n =>
      obtain ⟨e, he, heq⟩ := Option.map_eq_some_iff.mp hstep
      cases heq
      exact .returned he
  | calling request poll =>
      obtain ⟨reply, hreply, heq⟩ := Option.map_eq_some_iff.mp hstep
      cases heq
      exact .answered hreply
  | done reply => cases hstep

theorem leads_answer? (hstep : g.answer? q id a = some (.handling k, g₁)) :
    ∃ h, a = .handling h ∧ Leads g (some h) k := by
  unfold answer? at hstep
  split at hstep
  · cases hstep
  · cases hstep
  · rename_i h _ _
    obtain ⟨⟨h', g₂⟩, hh, heq⟩ := Option.map_eq_some_iff.mp hstep
    cases heq
    exact ⟨h, rfl, leads_handle? hh⟩
  · split at hstep <;> cases hstep
  · split at hstep
    · cases hstep
    · split at hstep <;> cases hstep
    · cases hstep
  · cases hstep

theorem leads_advanceLoop? (hstep : g.advanceLoop? q l = some (l', g₁))
    (hk : l'.stage.handling? = some k) : Leads g l.stage.handling? k := by
  unfold advanceLoop? at hstep
  split at hstep
  · rename_i hstage
    split at hstep
    · split at hstep
      · cases hstep
        simp [hstage, LoopStage.handling?] at hk
      · cases hstep
        cases hk
        rw [hstage]
        exact .arrived
    · split at hstep <;> cases hstep
      cases hk
  · cases hstep
    split at hk <;> cases hk
  · rename_i a hne hstage
    obtain ⟨⟨b, g₂⟩, ha, heq⟩ := Option.map_eq_some_iff.mp hstep
    cases heq
    unfold LoopStage.handling? at hk
    split at hk <;> cases hk
    rename_i hb
    cases hb
    obtain ⟨h, rfl, hh⟩ := leads_answer? ha
    rw [hstage]
    exact hh
  · cases hstep

theorem leads_control? (hstep : g.control? q = some g')
    (hk : (g'.process? q).bind Process.handling? = some k) :
    Leads g ((g.process? q).bind Process.handling?) k := by
  have hset {g₁ : Gateway} {z : Process}
      (hk : ((g₁.setProcess q z).process? q).bind Process.handling? = some k) :
      z.handling? = some k := by
    obtain ⟨y, hy, hk⟩ := Option.bind_eq_some_iff.mp hk
    rw [process?_setProcess, if_pos rfl, Option.map_eq_some_iff] at hy
    obtain ⟨-, -, rfl⟩ := hy
    exact hk
  obtain ⟨x, hx, hstep⟩ := Option.bind_eq_some_iff.mp hstep
  rw [hx, Option.bind_some]
  cases x with
  | message h =>
      obtain ⟨h', g₁, hh, rfl⟩ := of_staged hstep
      cases hset hk
      exact leads_handle? hh
  | answer id a =>
      obtain ⟨b, g₁, ha, rfl⟩ := of_staged hstep
      obtain heq | ⟨id', heq⟩ | ⟨id', inbound, heq⟩ := Process.of_handling (hset hk) <;> cases heq
      obtain ⟨h, rfl, hh⟩ := leads_answer? ha
      exact hh
  | sessionLoop l =>
      obtain ⟨l', g₁, hl, rfl⟩ := of_staged hstep
      exact leads_advanceLoop? hl (hset hk)
  | subscription | call | pages | notice | sweeper =>
      obtain ⟨z, g₁, -, rfl⟩ := of_staged hstep
      cases hset hk

theorem replied_control (hstep : g.control? q = some g') (hworks : g.Works q request) :
    ∃ reply, (g'.process? q).bind Process.handling? = some (.done (some reply)) ∧
      reply.Answers request := by
  obtain ⟨h, hh, hrequest⟩ := Option.bind_eq_some_iff.mp hworks
  cases h with
  | running i request' n =>
      cases hrequest
      obtain ⟨h', g₁, y, hhandle, -, -⟩ := handles_control hstep hh rfl
      obtain ⟨e, he, -⟩ := Option.map_eq_some_iff.mp hhandle
      exact ⟨_, handling_concluded hstep hh he, answers_replyTo⟩
  | calling request' poll =>
      cases hrequest
      obtain ⟨h', g₁, y, hhandle, rfl, hy⟩ := handles_control hstep hh rfl
      obtain ⟨reply, hreply, heq⟩ := Option.map_eq_some_iff.mp hhandle
      cases heq
      obtain ⟨x, hx, -⟩ := Option.bind_eq_some_iff.mp hh
      refine ⟨reply, ?_, answers_reply? hreply⟩
      rw [process?_setProcess, if_pos rfl, hx]
      exact hy
  | start | done => cases hrequest

end Gateway

theorem Process.incoming?_of_start {x : Process} {id : String} {m : Message}
    (h : x.handling? = some (.start id m)) : x.incoming? = some (id, m) := by
  obtain rfl | ⟨id, rfl⟩ | ⟨id, inbound, rfl⟩ := Process.of_handling h <;> rfl

section Run

open Gateway

variable {g₀ g₁ g g' : Gateway} {ms before after : List Moment} {b : Moment} {a : Act}
  {p q : ProcessId} {request : RequestId} {id : String} {m : Message} {u : Subscription}
  {peer : Subscriber} {params : TaskSendParams} {task : Task}

theorem Gateway.Works.others (hn : g.Numbered) (hlt : q < g.nextProcess)
    (hstep : g.perform a = some g') (ha : a ≠ .control q) :
    (g.Works q request → g'.process? q = none ∨ g'.Works q request) ∧
      (g'.Works q request → g.Works q request) := by
  cases hy : g'.process? q with
  | none => exact ⟨fun _ => .inl rfl, fun h => by simp [Works, hy] at h⟩
  | some y =>
      obtain ⟨x, hx, hk⟩ := kindred_begun hn hstep ha hlt hy
      have hiff : g'.Works q request ↔ g.Works q request := by
        rw [Works, Works, hx, hy, Option.bind_some, Option.bind_some, hk.request?]
      exact ⟨fun h => .inr (hiff.mpr h), hiff.mp⟩

theorem Moment.of_taking (hn : b.before.Numbered)
    (hstep : b.before.perform b.act = some b.after) (hb : b.taken? q = some (id, m)) :
    (b.after.process? q).bind Process.handling? = some (b.before.handle id m).1 ∧
      b.returned? q = (b.before.handle id m).1.reply? := by
  obtain ⟨g, a, g'⟩ := b
  obtain ⟨hact, hin⟩ := of_taken? hb
  obtain rfl : a = .control q := hact
  obtain ⟨x, hx, hincoming⟩ := Option.bind_eq_some_iff.mp hin
  obtain ⟨y, hy, hafter⟩ := of_incoming hx hincoming hstep
  obtain rfl : g' = (g.handle id m).2.setProcess q y := hafter
  have hspares : Spares none g (g.handle id m).2 := spares_handled hn handled_handle
  have hhandling : (((g.handle id m).2.setProcess q y).process? q).bind Process.handling? =
      some (g.handle id m).1 := by
    rw [process?_setProcess, if_pos rfl, hspares.others q x nofun hx]
    exact hy
  exact ⟨hhandling, by rw [returned?_control, hhandling]; rfl⟩

theorem Gateway.returned?_idle (hn : g.Numbered) (hlt : q < g.nextProcess)
    (hstep : g.perform a = some g') (hfree : ∀ request, ¬ g.Works q request)
    (hnext : Moment.taken? q ⟨g, a, g'⟩ = none) :
    Moment.returned? q ⟨g, a, g'⟩ = none ∧ ∀ request, ¬ g'.Works q request := by
  by_cases ha : a = .control q
  · subst ha
    have fresh {k : Handling} (hk : (g'.process? q).bind Process.handling? = some k) :
        ∃ id m, k = .start id m := by
      have hleads := leads_control? hstep hk
      generalize hold : (g.process? q).bind Process.handling? = old at hleads
      cases hleads with
      | arrived => exact ⟨_, _, rfl⟩
      | @taken id m =>
          obtain ⟨x, hx, hstart⟩ := Option.bind_eq_some_iff.mp hold
          have hin : x.incoming? = some (id, m) := Process.incoming?_of_start hstart
          simp [Moment.taken?, hx, hin] at hnext
      | returned | answered => exact absurd (by rw [Works, hold]; rfl) (hfree _)
    rw [Moment.returned?_control]
    constructor
    · cases hk : (g'.process? q).bind Process.handling? with
      | none => rfl
      | some k =>
          obtain ⟨id, m, rfl⟩ := fresh hk
          rfl
    · intro request hworks
      obtain ⟨k, hk, hrequest⟩ := Option.bind_eq_some_iff.mp hworks
      obtain ⟨id, m, rfl⟩ := fresh hk
      cases hrequest
  · exact ⟨Moment.returned?_other ha, fun request h =>
      hfree request ((Works.others hn hlt hstep ha).2 h)⟩

theorem Run.returns_nothing (hn : g₁.Numbered) (hr : Run g₁ ms g) (hlt : q < g₁.nextProcess)
    (hfree : ∀ request, ¬ g₁.Works q request) (hnext : ∀ x ∈ ms, x.taken? q = none) :
    ms.filterMap (Moment.returned? q) = [] ∧ ∀ request, ¬ g.Works q request := by
  induction hr with
  | nil => exact ⟨rfl, hfree⟩
  | snoc hrun hstep ih =>
      obtain ⟨hnone, hfree⟩ := ih fun x hx => hnext x (by simp [hx])
      obtain ⟨hlast, hfree⟩ := returned?_idle (hrun.numbered hn)
        (Nat.lt_of_lt_of_le hlt (hrun.grown hn)) hstep hfree (hnext _ (by simp))
      exact ⟨by simp [hnone, hlast], hfree⟩

theorem Run.returns_reply (hn : g₁.Numbered) (hr : Run g₁ ms g) (hlt : q < g₁.nextProcess)
    (h₁ : g₁.Works q request) (hnext : ∀ x ∈ ms, x.taken? q = none) :
    (ms.filterMap (Moment.returned? q) = [] ∧ (g.process? q = none ∨ g.Works q request)) ∨
      (∃ reply, ms.filterMap (Moment.returned? q) = [some reply] ∧ reply.Answers request) ∧
        ∀ request, ¬ g.Works q request := by
  induction hr with
  | nil => exact .inl ⟨rfl, .inr h₁⟩
  | @snoc ms g a g' hrun hstep ih =>
      have hng := hrun.numbered hn
      have hlt := Nat.lt_of_lt_of_le hlt (hrun.grown hn)
      rcases ih fun x hx => hnext x (by simp [hx]) with
        ⟨hnone, hstate⟩ | ⟨⟨reply, hone, hanswers⟩, hfree⟩
      · by_cases ha : a = .control q
        · subst ha
          have hworks : g.Works q request := hstate.resolve_left fun hgone => by
            obtain ⟨x, hx, -⟩ := Option.bind_eq_some_iff.mp hstep
            cases hgone.symm.trans hx
          obtain ⟨reply, hdone, hanswers⟩ := replied_control hstep hworks
          refine .inr ⟨⟨reply, ?_, hanswers⟩, fun request hopen => ?_⟩
          · rw [List.filterMap_append, hnone, List.nil_append, List.filterMap_cons,
              Moment.returned?_control, hdone]
            rfl
          · rw [Works, hdone] at hopen
            cases hopen
        · refine .inl ⟨by simp [hnone, Moment.returned?_other ha], ?_⟩
          rcases hstate with hgone | hworks
          · cases hy : g'.process? q with
            | none => exact .inl rfl
            | some y =>
                obtain ⟨x, hx, -⟩ := kindred_begun hng hstep ha hlt hy
                cases hgone.symm.trans hx
          · exact (Works.others hng hlt hstep ha).1 hworks
      · obtain ⟨hlast, hfree⟩ := returned?_idle hng hlt hstep hfree (hnext _ (by simp))
        exact .inr ⟨⟨reply, by simp [hone, hlast], hanswers⟩, hfree⟩

namespace Gateway

variable {r : SessionRef} {d : Delivery}

def AwaitsRoom (p : ProcessId) (r : SessionRef) (d : Delivery) (g : Gateway) : Prop :=
  ∃ s m, g.session? r = some s ∧ d = .waiting m ∧ (s.outbound.offerFor p m).1 = .full

theorem awaitsRoom_of_deliver (h : g.deliver p r d = (.pending d, g')) : g.AwaitsRoom p r d := by
  cases hs : g.session? r with
  | none => simp [deliver, hs] at h
  | some s =>
      obtain ⟨m, hd, hfull⟩ := full_of_deliver hs h
      exact ⟨s, m, hs, hd, hfull⟩

end Gateway

/-- That a subscription waits for the clock, or for room in the queue of its session. -/
def Subscription.Waits (p : ProcessId) (g : Gateway) : Subscription → Prop
  | .running i => (∃ t, i.producer.stage = .sleeping t ∧ g.now < t) ∨
      ∃ s d, i.subscriber = some s ∧ i.consumer = .forwarding d ∧ g.AwaitsRoom p s.session d
  | .closing r d => g.AwaitsRoom p r d
  | .done => False

namespace Gateway

variable {i : Invocation} {d : Delivery} {r : SessionRef} {v : Subscription}

def CanStep (p : ProcessId) (g : Gateway) : Prop :=
  ∃ a ∈ [Act.produce p, .consume p, .control p], ∃ g', g.perform a = some g'

theorem canStep_produce (hi : g.invocation? p = some i)
    (h : ∃ u x, i.producer.advance? i.taskId (g.surroundings i) = some (u, x)) :
    g.CanStep p := by
  refine ⟨.produce p, by simp, ?_⟩
  obtain ⟨u, x, hu⟩ := h
  simp only [perform, produce?, hi, hu, Option.bind_eq_bind, Option.bind_some]
  cases u with
  | some u => exact ⟨_, rfl⟩
  | none =>
      dsimp only
      split <;> exact ⟨_, rfl⟩

theorem canStep_consume (h : ∃ g', g.consume? p = some g') : g.CanStep p :=
  ⟨.consume p, by simp, h⟩

theorem canStep_control (hu : g.process? p = some (.subscription u))
    (h : ∃ x, g.subscription? p u = some x) : g.CanStep p := by
  obtain ⟨⟨v, g₁⟩, hstep⟩ := h
  exact ⟨.control p, by simp, g₁.setProcess p (.subscription v), by simp [perform, control?, hu, hstep]⟩

theorem consume?_forwarding (hi : g.invocation? p = some i) (hd : i.consumer = .forwarding d) :
    (∃ g', g.consume? p = some g') ∨ ∃ s, i.subscriber = some s ∧ g.AwaitsRoom p s.session d := by
  simp only [consume?, hi, Option.bind_eq_bind, Option.bind_some, hd]
  cases hs : i.subscriber with
  | none => exact .inl ⟨_, rfl⟩
  | some s =>
      dsimp only [forward]
      generalize hdel : g.deliver p s.session d = x
      obtain ⟨state, g₁⟩ := x
      cases state with
      | sent | failed => exact .inl ⟨_, rfl⟩
      | pending d' =>
          by_cases hsame : d' = d
          · subst hsame
            exact .inr ⟨s, rfl, awaitsRoom_of_deliver hdel⟩
          · exact .inl ⟨_, if_neg hsame⟩

theorem subscription?_closing :
    (∃ x, g.subscription? p (.closing r d) = some x) ∨ g.AwaitsRoom p r d := by
  simp only [subscription?]
  generalize hdel : g.deliver p r d = x
  obtain ⟨state, g₁⟩ := x
  cases state with
  | sent | failed => exact .inl ⟨_, rfl⟩
  | pending d' =>
      by_cases hsame : d' = d
      · subst hsame
        exact .inr (awaitsRoom_of_deliver hdel)
      · exact .inl ⟨_, if_neg hsame⟩

end Gateway

theorem Run.goes_on (h₀ : g₀.IsNew) (hr : Run g₀ ms g)
    (hu : g.process? p = some (.subscription u)) (hne : u ≠ .done) :
    g.CanStep p ∨ u.Waits p g := by
  cases u with
  | running i =>
      have hi : g.invocation? p = some i := invocation?_eq hu
      cases hc : i.consumer with
      | receiving =>
          cases hq : i.queue with
          | cons u rest => exact .inl (canStep_consume ⟨_, by simp [consume?, hi, hc, hq]; rfl⟩)
          | nil =>
              cases he : i.producer.ending? with
              | some e => exact .inl (canStep_consume ⟨_, by simp [consume?, hi, hc, hq, he]; rfl⟩)
              | none =>
                  by_cases hs : ∃ t, i.producer.stage = .sleeping t ∧ g.now < t
                  · exact .inr (.inl hs)
                  · refine .inl (canStep_produce hi (Producer.exists_advance he ?_ ?_))
                    · exact fun _ t ht => Nat.not_lt.mp fun hlt => hs ⟨t, ht, hlt⟩
                    · exact fun _ _ => by simp [surroundings, hq, Invocation.queueCapacity]
      | forwarding d =>
          rcases consume?_forwarding hi hc with hstep | ⟨s, hs, hroom⟩
          · exact .inl (canStep_consume hstep)
          · exact .inr (.inr ⟨s, d, hs, hc, hroom⟩)
      | stopped =>
          cases he : i.producer.ending? with
          | some e =>
              exact .inl (canStep_control hu
                ⟨_, by simp [subscription?, Invocation.ending?, hc, he]; rfl⟩)
          | none =>
              -- it has stopped because it has lost its subscriber, and the producer learns of that
              obtain ⟨ds, hh⟩ := hr.history h₀
              obtain ⟨t₀, folded, hp⟩ := hh.path.kept.progress p i.plain (work_eq hi)
              have hconsumed : i.Consumed (.lost p i.token ∈ ds) (toldIn ds p) folded := hp.consumed
              simp only [Invocation.Consumed, hc, he, Option.isSome_none, Bool.false_eq_true,
                false_and, and_false, or_false] at hconsumed
              have hsignalled : i.token ∈ g.signalled := hh.path.signalled_of_lost hconsumed.1
              have hcancelled : (g.surroundings i).cancelled ≠ false := by
                simp [surroundings, isSignalled, hsignalled]
              exact .inl (canStep_produce hi (Producer.exists_advance he
                (fun hf => absurd hf hcancelled) fun hf => absurd hf hcancelled))
  | closing r d => exact subscription?_closing.imp_left (canStep_control hu)
  | done => exact absurd rfl hne

/-- What stands for the reply to a subscription that was let in at a moment: a process of its own
has begun with its task; what that has sent so far is the beginning of the stream of updates, each
under the id of the request; once it is done, the stream is whole and closed; and until then it goes
on, unless it waits for the clock or for room in the queue of the session. -/
structure Moment.Streams (ms : List Moment) (g : Gateway) (peer : Subscriber) (task : Task)
    (b : Moment) : Prop where
  begun : ∃ i, b.Starts b.before.nextProcess i task ∧ i.subscriber = some peer ∧
    b.after.process? b.before.nextProcess = some (.subscription (.running i))
  relaying : ∀ u, g.process? b.before.nextProcess = some (.subscription u) → u ≠ .done →
    g.IsServed peer.session →
      ms.flatMap (Moment.sent b.before.nextProcess peer.session) <+:
        (ms.flatMap (Moment.emitted b.before.nextToken)).map (Update.toMessage peer.request)
  relayed : g.process? b.before.nextProcess = some (.subscription .done) →
    g.IsServed peer.session → ∃ told, ClosedBy told ∧
      ms.flatMap (Moment.emitted b.before.nextToken) <+: told ∧
      ms.flatMap (Moment.sent b.before.nextProcess peer.session) =
        told.map (Update.toMessage peer.request)
  named : ∀ u, g.process? b.before.nextProcess = some (.subscription u) →
    g.IsServed peer.session →
      ∀ x ∈ ms.flatMap (Moment.sent b.before.nextProcess peer.session), x.id = some peer.request
  going : ∀ u, g.process? b.before.nextProcess = some (.subscription u) → u ≠ .done →
    g.CanStep b.before.nextProcess ∨ u.Waits b.before.nextProcess g

theorem Run.streams (h₀ : g₀.IsNew) (hr : Run g₀ ms g) (hb : b ∈ ms)
    (ha : b.Accepts .tasksSendSubscribe q peer params task) : b.Streams ms g peer task := by
  have relaying {u : Subscription} (hu : g.process? b.before.nextProcess = some (.subscription u))
      (hne : u ≠ .done) (hserved : g.IsServed peer.session) :=
    hr.relaying h₀ hb ha hu hne hserved
  have relayed (hdone : g.process? b.before.nextProcess = some (.subscription .done))
      (hserved : g.IsServed peer.session) : ∃ told, ClosedBy told ∧
        ms.flatMap (Moment.emitted b.before.nextToken) <+: told ∧
        ms.flatMap (Moment.sent b.before.nextProcess peer.session) =
          told.map (Update.toMessage peer.request) := by
    obtain ⟨m, -, i, e, -, -, hclosed, left, hleft, hsent⟩ :=
      hr.relayed h₀ hb ha hdone trivial hserved
    obtain rfl : left = [] := hleft
    exact ⟨_, hclosed, List.prefix_append .., by rw [← hsent, List.append_nil]⟩
  refine ⟨?_, fun u => relaying, relayed, fun u hu hserved x hx => ?_, fun u => hr.goes_on h₀⟩
  · obtain ⟨pre, post, hms⟩ := List.append_of_mem hb
    obtain ⟨hrun, hstep, -⟩ := hr.split hms
    obtain ⟨ds, hh⟩ := hrun.history h₀
    exact hh.start_subscribe hstep ha
  · by_cases hdone : u = .done
    · obtain ⟨told, -, -, hsent⟩ := relayed (hdone ▸ hu) hserved
      rw [hsent] at hx
      obtain ⟨v, -, rfl⟩ := List.mem_map.mp hx
      exact Update.id_toMessage
    · obtain ⟨v, -, rfl⟩ := List.mem_map.mp ((relaying hu hdone hserved).subset hx)
      exact Update.id_toMessage

/-- A request that a process takes up is answered once. Until the process takes up another message,
either nothing has been returned to it and it runs the invocation of the request, or waits for the
tool that it has called for it, unless it was aborted; or one reply has been returned, under the id of the request; or it was returned that there
is none, and the request is a subscription which was let in and is streamed under its id. -/
theorem request_answered (h₀ : g₀.IsNew) (hr : Run g₀ (before ++ b :: after) g)
    (hb : b.taken? q = some (id, m)) (hm : m.isRequest = true)
    (hnext : ∀ x ∈ after, x.taken? q = none) : ∃ request, m.id = some request ∧
    let returned := (b :: after).filterMap (Moment.returned? q)
    ((returned = [] ∧ (g.process? q = none ∨ g.Works q request)) ∨
      (∃ reply, returned = [some reply] ∧ reply.Answers request) ∨
      returned = [none] ∧ ∃ peer params task, peer.request = request ∧
        b.Accepts .tasksSendSubscribe q peer params task ∧
          b.Streams (before ++ b :: after) g peer task) := by
  obtain ⟨hmethod, hid⟩ := Bool.and_eq_true_iff.mp hm
  obtain ⟨name, hname⟩ := Option.isSome_iff_exists.mp hmethod
  obtain ⟨request, hid⟩ := Option.isSome_iff_exists.mp hid
  refine ⟨request, hid, ?_⟩
  obtain ⟨hrun, hstep, hrest⟩ := hr.split rfl
  obtain ⟨hact, hin⟩ := Moment.of_taken? hb
  obtain ⟨x, hx, -⟩ := Option.bind_eq_some_iff.mp hin
  have hn : b.after.Numbered := (hrun.snoc hstep).numbered h₀.numbered
  have hlt : q < b.after.nextProcess := by
    have hnb := hrun.numbered h₀.numbered
    refine Nat.lt_of_lt_of_le ?_ (simulated_perform hnb hstep).spares.grown
    by_contra hge
    cases hx.symm.trans (hnb q (Nat.not_lt.mp hge))
  obtain ⟨hhandling, hreturned⟩ := Moment.of_taking (hrun.numbered h₀.numbered) hstep hb
  have quiet {reply : Option Message} (hdone : (b.before.handle id m).1 = .done reply) :
      (b :: after).filterMap (Moment.returned? q) = [reply] := by
    have hfree : ∀ request, ¬ b.after.Works q request := by
      intro request hopen
      rw [Works, hhandling, hdone] at hopen
      cases hopen
    rw [hdone] at hreturned
    rw [List.filterMap_cons, hreturned, (hrest.returns_nothing hn hlt hfree hnext).1]
    rfl
  -- the reply comes when the invocation has ended, or the tool has answered
  have later (hopen : (b.before.handle id m).1.reply? = none)
      (hrequest : (b.before.handle id m).1.request? = some request) :
      ((b :: after).filterMap (Moment.returned? q) = [] ∧
        (g.process? q = none ∨ g.Works q request)) ∨
      ∃ reply, (b :: after).filterMap (Moment.returned? q) = [some reply] ∧
        reply.Answers request := by
    have hworks : b.after.Works q request := by rw [Works, hhandling, Option.bind_some, hrequest]
    rw [List.filterMap_cons, hreturned, hopen]
    exact (hrest.returns_reply hn hlt hworks hnext).imp_right And.left
  rcases answers_or_accepts hname hid with ⟨reply, hdone, hanswers⟩ | ⟨hcalling, -⟩ |
    ⟨method, peer, params, task, hmethod, hpeer, haccepts⟩
  · exact .inr (.inl ⟨reply, quiet hdone, hanswers⟩)
  · exact (later (by rw [hcalling]; rfl) (by rw [hcalling]; rfl)).imp_right .inl
  · obtain rfl | rfl := hmethod
    · obtain ⟨sessions, headers, store, -, hhandle⟩ := haccepts.send
      exact (later (by rw [hhandle]; rfl) (by rw [hhandle, ← hpeer]; rfl)).imp_right .inl
    · obtain ⟨sessions, headers, store, -, hhandle⟩ := haccepts.subscribe
      have ha : b.Accepts .tasksSendSubscribe q peer params task := ⟨hact, id, m, hin, haccepts⟩
      exact .inr (.inr ⟨quiet (by rw [hhandle]), peer, params, task, hpeer, ha,
        hr.streams h₀ (by simp) ha⟩)

end Run

theorem request_answered_streaming : ∃ (before after : List Moment) (b : Moment) (g : Gateway)
    (id : String) (m : Message) (peer : Subscriber) (params : TaskSendParams) (task : Task),
    Run (Gateway.new {} []) (before ++ b :: after) g ∧ b.taken? 0 = some (id, m) ∧
    m.isRequest = true ∧ (∀ x ∈ after, x.taken? 0 = none) ∧
    (b :: after).filterMap (Moment.returned? 0) = [none] ∧ m.id = some peer.request ∧
    b.Accepts .tasksSendSubscribe 0 peer params task ∧
    b.Streams (before ++ b :: after) g peer task ∧
    ((before ++ b :: after).flatMap (Moment.sent 1 0)).length = 3 := by
  obtain ⟨ms, g, hr, -, h⟩ := Run.exists_of_replay
    (Act.subscribing "respond(text, \"hi\")" ++ List.replicate 9 (.produce 1) ++
      List.replicate 7 (.consume 1) ++ [.control 1])
    (Gateway.new {} [])
    (fun ms _ => (ms[2]?.any fun b => ((b.taken? 0).any fun taken => taken.2.isRequest) ∧
        (b :: ms.drop 3).filterMap (Moment.returned? 0) = [none]) ∧
      (ms.drop 3).all (fun x => (x.taken? 0).isNone) ∧
      (ms.flatMap (Moment.sent 1 0)).length = 3)
    (by decide +kernel)
  obtain ⟨h, hnext, hlength⟩ := of_decide_eq_true h
  obtain ⟨b, hb, h⟩ := (Option.any_eq_true ..).mp h
  obtain ⟨htaken, hreturned⟩ := of_decide_eq_true h
  obtain ⟨⟨id, m⟩, htaken, hm⟩ := (Option.any_eq_true ..).mp htaken
  rw [← take_append_cons_drop hb] at hr hlength
  have hnext : ∀ x ∈ ms.drop 3, x.taken? 0 = none := fun x hx => by
    simpa using List.all_eq_true.mp hnext x hx
  obtain ⟨request, hid, ⟨hnone, -⟩ | ⟨reply, hreply, -⟩ | ⟨-, peer, params, task, hpeer, ha, hs⟩⟩ :=
    request_answered ⟨{}, [], 0, rfl⟩ hr htaken hm hnext
  · cases hreturned.symm.trans hnone
  · cases hreturned.symm.trans hreply
  · exact ⟨_, _, b, g, id, m, peer, params, task, hr, htaken, hm, hnext, hreturned,
      hpeer ▸ hid, ha, hs, hlength⟩

end AgentGateway
