import AgentGateway.Proofs.Overtaking
import AgentGateway.Proofs.Roster
/-!
The loop of a session as a machine of its own: what comes into it, what it takes, handles and has
queued. Each act upon a gateway is a step of the loop or leaves it as it is.
-/

namespace AgentGateway

open Gateway

namespace Gateway

variable {g : Gateway} {m : Message} (id : String)

theorem answers_or_streams (hm : m.isRequest = true)
    (hname : m.methodName ≠ Method.tasksSend.name) : ∃ request, m.id = some request ∧
      ((∃ reply, (g.handle id m).1 = .done (some reply) ∧ reply.Answers request) ∨
        ((g.handle id m).1 = .calling request .pending ∧ m.methodName = Method.toolsCall.name) ∨
        (g.handle id m).1 = .done none ∧ ∃ peer params task, peer.request = request ∧
          g.Accepts .tasksSendSubscribe id m peer params task) := by
  obtain ⟨hmethod, hid⟩ := Bool.and_eq_true_iff.mp hm
  obtain ⟨name, hmethod⟩ := Option.isSome_iff_exists.mp hmethod
  obtain ⟨request, hid⟩ := Option.isSome_iff_exists.mp hid
  refine ⟨request, hid, ?_⟩
  rcases answers_or_accepts hmethod hid with hanswered | ⟨hcalling, rfl⟩ |
    ⟨method, peer, params, task, rfl | rfl, hpeer, haccepts⟩
  · exact .inl hanswered
  · exact .inr (.inl ⟨hcalling, by rw [Message.methodName, hmethod]; rfl⟩)
  · exact absurd (by rw [Message.methodName, haccepts.named]; rfl) hname
  · obtain ⟨sessions, headers, store, -, hhandle⟩ := haccepts.subscribe
    exact .inr (.inr ⟨by rw [hhandle], peer, params, task, hpeer, haccepts⟩)

end Gateway

/-- That a message is met by what is returned for it: a request by a reply of its own, or by none if
it is to be streamed. -/
def Message.IsMetBy (m : Message) (reply : Option Message) : Prop :=
  m.isRequest = true → ∃ request, m.id = some request ∧
    ((∃ y, reply = some y ∧ y.Answers request) ∨
      reply = none ∧ m.methodName = Method.tasksSendSubscribe.name)

namespace Gateway

variable {g : Gateway} {m : Message} (id : String)

theorem met_or_calls (hname : m.methodName ≠ Method.tasksSend.name) :
    (∃ reply, (g.handle id m).1 = .done reply ∧ m.IsMetBy reply) ∨
      ∃ request, m.id = some request ∧ (g.handle id m).1 = .calling request .pending := by
  cases hm : m.isRequest with
  | false =>
      obtain ⟨reply, hdone⟩ := handle_unasked (g := g) id hm
      exact .inl ⟨reply, hdone, fun h => by cases hm.symm.trans h⟩
  | true =>
      obtain ⟨request, hid, ⟨y, hdone, hy⟩ | ⟨hcalling, -⟩ |
        ⟨hdone, peer, params, task, -, haccepts⟩⟩ := answers_or_streams (g := g) id hm hname
      · exact .inl ⟨some y, hdone, fun _ => ⟨request, hid, .inl ⟨y, rfl, hy⟩⟩⟩
      · exact .inr ⟨request, hid, hcalling⟩
      · refine .inl ⟨none, hdone, fun _ => ⟨request, hid, .inr ⟨rfl, ?_⟩⟩⟩
        rw [Message.methodName, haccepts.named]
        rfl

end Gateway

namespace Session

def queued (s : Session) : List Message := s.outbound.queue

instance calm_queued : Calm queued where
  transition h := by
    unfold transition at h
    split at h
    · cases h
    · split at h <;> cases h
      rfl
  logLevel _ _ := rfl
  pending _ _ := rfl

def unqueued (s : Session) : Session := { s with outbound := { capacity := 0 } }

instance unqueued_unqueued : Unqueued unqueued where
  outbound _ _ := rfl

end Session

namespace Gateway

variable {g g' : Gateway} {id : String} {m : Message} {p : ProcessId} {r : SessionRef}

theorem outbox_of_profile (h : g'.profile Session.queued = g.profile Session.queued) :
    g'.outbox r = g.outbox r := by
  have hbox (g : Gateway) : g.outbox r = ((g.session? r).map Session.queued).getD [] := by
    rw [outbox]
    cases g.session? r <;> rfl
  rw [hbox, hbox, mark_of_profile h]

theorem outbox_handle : (g.handle id m).2.outbox r = g.outbox r := by
  cases hget : g.get id with
  | error e => simp [handle, hget]
  | ok x =>
      obtain ⟨q, s⟩ := x
      refine outbox_of_profile ((profile_handle hget).trans ?_)
      obtain ⟨limiters, hs⟩ := Session.validate_eq g.settings.validation g.now (s.touch g.now) m
      have hqueued : ((Pipeline.standard g.settings.validation).validate g.now (s.touch g.now)
          m).2.queued = s.queued := by
        rw [hs]
        rfl
      exact profile_setSession (session?_of_get hget) hqueued

structure Rests (g g' : Gateway) : Prop where
  store : g'.store = g.store
  sessions : g'.profile Session.unqueued = g.profile Session.unqueued

theorem Rests.refl : g.Rests g := ⟨rfl, rfl⟩

theorem rests_spawn {x : Process} : g.Rests (g.spawn x).2 where
  store := (store_of_inner inner_wake).trans rfl
  sessions := profile_of_desk desk_spawn

theorem rests_deliver {d : Delivery} : g.Rests (g.deliver p r d).2 where
  store := store_of_inner inner_deliver
  sessions := profile_deliver

end Gateway

inductive LoopEvent where
  | quiet
  | fed (m : Message)
  | fetched (m : Message)
  | started (m : Message)
  | returned (reply : Message)
  | handled (m : Message) (reply : Option Message)
  | queued (m : Message)

namespace LoopEvent

def fed? : LoopEvent → Option Message
  | .fed m => some m
  | _ => none

def fetched? : LoopEvent → Option Message
  | .fetched m => some m
  | _ => none

def started? : LoopEvent → Option Message
  | .started m | .handled m _ => some m
  | _ => none

def returned? : LoopEvent → Option (Option Message)
  | .returned reply => some (some reply)
  | .handled _ reply => some reply
  | _ => none

def sent : LoopEvent → List Message
  | .queued m => [m]
  | _ => []

end LoopEvent

/-- What a loop has shown so far: the messages that have come in, those that it has taken, those
that it has started to handle, what has been returned for them, and what it has put into the queue
of a session. -/
structure LoopLog where
  fed : List Message := []
  fetched : List Message := []
  started : List Message := []
  returned : List (Option Message) := []
  queued : List Message := []

namespace LoopLog

def own (log : LoopLog) : List Message :=
  log.fetched.filter (·.methodName ≠ Method.tasksSend.name)

def turns (log : LoopLog) : List (Message × Option Message) := log.started.zip log.returned

def replies (log : LoopLog) : List Message := log.turns.filterMap Prod.snd

def snoc (log : LoopLog) : LoopEvent → LoopLog
  | .quiet => log
  | .fed m => { log with fed := log.fed ++ [m] }
  | .fetched m => { log with fetched := log.fetched ++ [m] }
  | .started m => { log with started := log.started ++ [m] }
  | .returned reply => { log with returned := log.returned ++ [some reply] }
  | .handled m reply =>
    { log with started := log.started ++ [m], returned := log.returned ++ [reply] }
  | .queued m => { log with queued := log.queued ++ [m] }

/-- That messages are taken, handled and answered in the order in which they have come in, and none
is started before that before it is returned from. -/
structure InOrder (log : LoopLog) : Prop where
  fetched : log.fetched <+: log.fed
  started : log.started <+: log.own
  handled : log.turns.map Prod.fst <+: log.started
  returned : log.turns.map Prod.snd = log.returned
  single : log.started.length ≤ log.turns.length + 1
  met : ∀ turn ∈ log.turns, turn.1.IsMetBy turn.2
  queued : log.queued <+: log.replies

structure Settled (log : LoopLog) : Prop where
  started : log.started = log.own
  handled : log.turns.map Prod.fst = log.own
  queued : log.queued = log.replies

structure Leaves (log : LoopLog) (ahead asked owed : List Message) : Prop where
  started : log.started ++ ahead = log.own
  handled : log.turns.map Prod.fst ++ asked = log.started
  returned : log.turns.map Prod.snd = log.returned
  met : ∀ turn ∈ log.turns, turn.1.IsMetBy turn.2
  queued : log.queued ++ owed = log.replies

variable {log : LoopLog} {ahead asked owed : List Message} {m : Message}

theorem own_fetched : (log.snoc (.fetched m)).own =
    log.own ++ [m].filter (·.methodName ≠ Method.tasksSend.name) := List.filter_append ..

theorem zip_turns {α β : Type} (l : List (α × β)) (as : List α) (bs : List β) :
    (l.map Prod.fst ++ as).zip (l.map Prod.snd ++ bs) = l ++ as.zip bs := by
  have hzip : l = (l.map Prod.fst).zip (l.map Prod.snd) := List.zip_of_prod rfl rfl
  rw [List.zip_append (by simp), ← hzip]

namespace Leaves

theorem turns_extended (h : log.Leaves ahead asked owed) (ms : List Message)
    (rs : List (Option Message)) :
    (log.started ++ ms).zip (log.returned ++ rs) = log.turns ++ (asked ++ ms).zip rs := by
  rw [← h.handled, ← h.returned, List.append_assoc, zip_turns]

theorem single (h : log.Leaves ahead asked owed) (hasked : asked.length ≤ 1) :
    log.started.length ≤ log.turns.length + 1 := by
  rw [← h.handled, List.length_append, List.length_map]
  exact Nat.add_le_add_left hasked _

theorem start (h : log.Leaves [m] [] owed) : (log.snoc (.started m)).Leaves [] [m] owed := by
  have hturns : (log.snoc (.started m)).turns = log.turns := by
    have hzip := h.turns_extended [m] []
    rwa [List.append_nil, List.zip_nil_right, List.append_nil] at hzip
  refine ⟨?_, ?_, ?_, ?_, ?_⟩
  · exact (List.append_nil _).trans h.started
  · rw [hturns]
    exact congrArg (· ++ [m]) ((List.append_nil _).symm.trans h.handled)
  · rw [hturns]
    exact h.returned
  · rw [hturns]
    exact h.met
  · rw [replies, hturns]
    exact h.queued

theorem finish {log' : LoopLog} {reply : Option Message} (h : log.Leaves ahead asked [])
    (hturns : log'.turns = log.turns ++ [(m, reply)]) (hstarted : log'.started = log'.own)
    (hhandled : log.turns.map Prod.fst ++ [m] = log'.started)
    (hreturned : log'.returned = log.returned ++ [reply]) (hqueued : log'.queued = log.queued)
    (hmet : m.IsMetBy reply) : log'.Leaves [] [] reply.toList := by
  refine ⟨(List.append_nil _).trans hstarted, ?_, ?_, ?_, ?_⟩
  · rw [List.append_nil, hturns, List.map_append]
    exact hhandled
  · rw [hturns, List.map_append, h.returned, hreturned]
    rfl
  · rw [hturns]
    intro turn hturn
    rcases List.mem_append.mp hturn with hturn | hturn
    · exact h.met turn hturn
    · obtain rfl := List.mem_singleton.mp hturn
      exact hmet
  · have howed := h.queued
    rw [List.append_nil] at howed
    rw [replies, hturns, filterMap_snoc, hqueued, howed]
    rfl

theorem handle {reply : Option Message} (h : log.Leaves [m] [] []) (hmet : m.IsMetBy reply) :
    (log.snoc (.handled m reply)).Leaves [] [] reply.toList := by
  have hhandled := h.handled
  rw [List.append_nil] at hhandled
  exact h.finish (h.turns_extended [m] [reply]) h.started (congrArg (· ++ [m]) hhandled) rfl rfl hmet

theorem settle {reply : Message} (h : log.Leaves [] [m] []) (hmet : m.IsMetBy (some reply)) :
    (log.snoc (.returned reply)).Leaves [] [] [reply] := by
  have hstarted := h.started
  have hturns : (log.snoc (.returned reply)).turns = log.turns ++ [(m, some reply)] := by
    have hzip := h.turns_extended [] [some reply]
    rwa [List.append_nil] at hzip
  rw [List.append_nil] at hstarted
  exact h.finish hturns hstarted h.handled rfl rfl hmet

theorem feed (h : log.Leaves ahead asked owed) : (log.snoc (.fed m)).Leaves ahead asked owed :=
  ⟨h.started, h.handled, h.returned, h.met, h.queued⟩

theorem queue (h : log.Leaves ahead asked [m]) : (log.snoc (.queued m)).Leaves ahead asked [] :=
  ⟨h.started, h.handled, h.returned, h.met, (List.append_nil _).trans h.queued⟩

theorem fork (h : log.Leaves ahead asked owed) (hname : m.methodName = Method.tasksSend.name) :
    (log.snoc (.fetched m)).Leaves ahead asked owed := by
  refine ⟨?_, h.handled, h.returned, h.met, h.queued⟩
  rw [own_fetched, ← h.started]
  simp [snoc, hname]

theorem fetch (h : log.Leaves [] asked owed) (hname : m.methodName ≠ Method.tasksSend.name) :
    (log.snoc (.fetched m)).Leaves [m] asked owed := by
  refine ⟨?_, h.handled, h.returned, h.met, h.queued⟩
  rw [own_fetched, ← h.started]
  simp [snoc, hname]

end Leaves

end LoopLog

/-- What a loop on its way to a session still has to do: the message that it has taken but not
started to handle, that for which it waits for a tool, and the reply that is not queued yet. -/
inductive LoopStage.Owes (r : SessionRef) :
    LoopStage → List Message → List Message → List Message → Prop
  | receiving : Owes r .receiving [] [] []
  | fetched {id m} : m.methodName ≠ Method.tasksSend.name →
      Owes r (.answering (.handling (.start id m))) [m] [] []
  | calling {m request poll} : m.id = some request →
      Owes r (.answering (.handling (.calling request poll))) [] [m] []
  | unasked : Owes r (.answering (.handling (.done none))) [] [] []
  | answered {m} : Owes r (.answering (.handling (.done (some m)))) [] [] [m]
  | replying {m} : Owes r (.answering (.replying m)) [] [] [m]
  | sending {d} : Owes r (.answering (.sending r d)) [] [] [d.message]
  | sent : Owes r (.answering (.done true)) [] [] []
  | stopped : Owes r .stopped [] [] []

theorem LoopStage.Owes.length_asked {r : SessionRef} {stage : LoopStage}
    {ahead asked owed : List Message} (h : stage.Owes r ahead asked owed) : asked.length ≤ 1 := by
  cases h <;> simp

theorem LoopStage.Owes.invocation? {r : SessionRef} {l : SessionLoop}
    {ahead asked owed : List Message} (h : l.stage.Owes r ahead asked owed) :
    (Process.sessionLoop l).invocation? = none := by
  obtain ⟨id, inbound, stage⟩ := l
  cases h <;> rfl

namespace SessionLoop

inductive Step (r : SessionRef) (l : SessionLoop) : LoopEvent → SessionLoop → Prop
  | idle : Step r l .quiet l
  | fed {m} : l.inbound.receiving = true →
      Step r l (.fed m) { l with inbound := l.inbound.push m }
  | hungUp : Step r l .quiet { l with inbound := l.inbound.dropSender }
  | forked {m c} : l.stage = .receiving → l.inbound.queue = m :: c.queue →
      m.methodName = Method.tasksSend.name → Step r l (.fetched m) { l with inbound := c }
  | fetched {m c} : l.stage = .receiving → l.inbound.queue = m :: c.queue →
      m.methodName ≠ Method.tasksSend.name → Step r l (.fetched m)
        { l with inbound := c, stage := .answering (.handling (.start l.sessionId m)) }
  | handled {id m reply} : l.stage = .answering (.handling (.start id m)) → m.IsMetBy reply →
      Step r l (.handled m reply) { l with stage := .answering (.handling (.done reply)) }
  | started {id m request} : l.stage = .answering (.handling (.start id m)) →
      m.id = some request → Step r l (.started m)
        { l with stage := .answering (.handling (.calling request .pending)) }
  | returned {request poll reply} : l.stage = .answering (.handling (.calling request poll)) →
      reply.Answers request → Step r l (.returned reply)
        { l with stage := .answering (.handling (.done (some reply))) }
  | moved {stage} :
      (∀ ahead asked owed, l.stage.Owes r ahead asked owed → stage.Owes r ahead asked owed) →
      stage ≠ .stopped → Step r l .quiet { l with stage }
  | queued {d} : l.stage = .answering (.sending r d) →
      Step r l (.queued d.message) { l with stage := .answering (.done true) }
  | stopped : l.stage = .receiving → l.inbound.queue = [] → Step r l .quiet l.stop

theorem step_settle (r : SessionRef) (l : SessionLoop) (poll : ToolPoll) :
    ∃ l', (Process.sessionLoop l).settle poll = .sessionLoop l' ∧ l.Step r .quiet l' := by
  unfold Process.settle
  dsimp only
  split
  · rename_i h hstage
    refine ⟨_, rfl, .moved (fun ahead asked owed howes => ?_) nofun⟩
    rw [hstage] at howes
    cases howes with
    | @calling m request poll' hid =>
        cases poll' with
        | pending => exact .calling hid
        | ok | error => exact .calling hid
    | fetched hname => exact .fetched hname
    | unasked => exact .unasked
    | answered => exact .answered
  · exact ⟨l, rfl, .idle⟩

structure Tends (id : String) (r : SessionRef) (log : LoopLog) (l : SessionLoop) : Prop where
  named : l.sessionId = id
  arrived : log.fed = log.fetched ++ l.inbound.queue
  ended : l.stage = .stopped → l.inbound.queue = [] ∧ l.inbound.receiving = false
  owes : ∃ ahead asked owed, l.stage.Owes r ahead asked owed ∧ log.Leaves ahead asked owed

variable {id : String} {r : SessionRef} {log : LoopLog} {l l' : SessionLoop} {e : LoopEvent}

theorem Tends.start {capacity : Nat} :
    Tends id r {} { sessionId := id, inbound := { capacity } } where
  named := rfl
  arrived := rfl
  ended h := by cases h
  owes := ⟨[], [], [], .receiving, rfl, rfl, rfl, List.forall_mem_nil _, rfl⟩

theorem Tends.step (h : l.Tends id r log) (hs : l.Step r e l') : l'.Tends id r (log.snoc e) := by
  obtain ⟨ahead, asked, owed, howes, hleaves⟩ := h.owes
  have taken {m : Message} {c : Channel Message} (hqueue : l.inbound.queue = m :: c.queue) :
      log.fed = (log.fetched ++ [m]) ++ c.queue := by
    rw [h.arrived, hqueue, List.append_assoc]
    rfl
  cases hs with
  | idle => exact h
  | @fed m hreceiving =>
      refine ⟨h.named, ?_, fun hstop => ?_, ahead, asked, owed, howes, hleaves.feed⟩
      · rw [LoopLog.snoc, h.arrived, List.append_assoc]
        rfl
      · rw [(h.ended hstop).2] at hreceiving
        cases hreceiving
  | hungUp => exact ⟨h.named, h.arrived, h.ended, h.owes⟩
  | @forked m c hstage hqueue hname =>
      refine ⟨h.named, taken hqueue, fun hstop => ?_, ahead, asked, owed, howes, hleaves.fork hname⟩
      cases hstage.symm.trans hstop
  | @fetched m c hstage hqueue hname =>
      rw [hstage] at howes
      cases howes
      exact ⟨h.named, taken hqueue, nofun, [m], [], [], .fetched hname, hleaves.fetch hname⟩
  | @handled id m reply hstage hmet =>
      rw [hstage] at howes
      cases howes
      refine ⟨h.named, h.arrived, nofun, [], [], reply.toList, ?_, hleaves.handle hmet⟩
      cases reply with
      | none => exact .unasked
      | some y => exact .answered
  | @started id m request hstage hid =>
      rw [hstage] at howes
      cases howes
      exact ⟨h.named, h.arrived, nofun, [], [m], [], .calling hid, hleaves.start⟩
  | @returned request poll reply hstage hanswers =>
      rw [hstage] at howes
      cases howes with
      | calling hid =>
          exact ⟨h.named, h.arrived, nofun, [], [], [reply], .answered,
            hleaves.settle fun _ => ⟨request, hid, .inl ⟨reply, rfl, hanswers⟩⟩⟩
  | moved hmove hne =>
      exact ⟨h.named, h.arrived, fun hstop => absurd hstop hne, ahead, asked, owed,
        hmove _ _ _ howes, hleaves⟩
  | @queued d hstage =>
      rw [hstage] at howes
      cases howes
      exact ⟨h.named, h.arrived, nofun, [], [], [], .sent, hleaves.queue⟩
  | stopped hstage hempty =>
      rw [hstage] at howes
      cases howes
      refine ⟨h.named, ?_, fun _ => ⟨rfl, rfl⟩, [], [], [], .stopped, hleaves⟩
      exact h.arrived.trans (by rw [hempty]; rfl)

end SessionLoop

namespace Channel

variable {α : Type} {c c' : Channel α} {a : α} {woken : Option ProcessId}

theorem queue_of_take? (h : c.take? = some (a, woken, c')) : c.queue = a :: c'.queue := by
  unfold take? at h
  split at h
  · cases h
  · rename_i b rest hqueue
    simp only [Option.some.injEq, Prod.mk.injEq] at h
    obtain ⟨rfl, -, rfl⟩ := h
    rw [hqueue, grantNext]
    split <;> rfl

theorem queue_of_take?_none (h : c.take? = none) : c.queue = [] := by
  unfold take? at h
  split at h
  · assumption
  · cases h

end Channel

namespace Moment

variable {p q : ProcessId} {r : SessionRef} {x : Moment} {e : LoopEvent} {g g' : Gateway} {a : Act}

def fed? (p : ProcessId) (x : Moment) : Option Message :=
  match x.act with
  | .feed q m => if q = p ∧ (x.before.feed p m).1 = .sent then some m else none
  | _ => none

def fetched? (p : ProcessId) (x : Moment) : Option Message :=
  match x.act with
  | .control q =>
    if q = p then
      (x.before.loop? p).bind fun l =>
        if l.stage = .receiving then l.inbound.take?.map (·.1) else none
    else none
  | _ => none

def started? (p : ProcessId) (x : Moment) : Option Message := (x.taken? p).map Prod.snd

def loopLog (p : ProcessId) (r : SessionRef) (ms : List Moment) : LoopLog where
  fed := ms.filterMap (fed? p)
  fetched := ms.filterMap (fetched? p)
  started := ms.filterMap (started? p)
  returned := ms.filterMap (returned? p)
  queued := ms.flatMap (sent p r)

structure ShowsLoop (p : ProcessId) (r : SessionRef) (e : LoopEvent) (x : Moment) : Prop where
  fed : x.fed? p = e.fed?
  fetched : x.fetched? p = e.fetched?
  started : x.started? p = e.started?
  returned : x.returned? p = e.returned?
  sent : x.sent p r = e.sent

theorem loopLog_snoc {ms : List Moment} (h : x.ShowsLoop p r e) :
    loopLog p r (ms ++ [x]) = (loopLog p r ms).snoc e := by
  have hsent : (ms ++ [x]).flatMap (Moment.sent p r) =
      ms.flatMap (Moment.sent p r) ++ x.sent p r := by simp
  unfold loopLog
  rw [filterMap_snoc, filterMap_snoc, filterMap_snoc, filterMap_snoc, hsent, h.fed, h.fetched,
    h.started, h.returned, h.sent]
  cases e <;> simp [LoopLog.snoc, LoopEvent.fed?, LoopEvent.fetched?, LoopEvent.started?,
    LoopEvent.returned?, LoopEvent.sent]

theorem showsLoop_other {o : Option Message} (h : g.perform a = some g')
    (hi : g.invocation? p = none) (ha : a ≠ .control p) (hfed : fed? p ⟨g, a, g'⟩ = o) :
    ShowsLoop p r (o.elim .quiet .fed) ⟨g, a, g'⟩ := by
  have hfetched : fetched? p ⟨g, a, g'⟩ = none := by
    cases a with
    | control q => exact if_neg fun heq => ha (congrArg Act.control heq)
    | _ => rfl
  have htaken : taken? p ⟨g, a, g'⟩ = none := by
    by_contra hne
    obtain ⟨⟨id, m⟩, hsome⟩ := Option.ne_none_iff_exists'.mp hne
    exact ha (of_taken? hsome).1
  have hstarted : started? p ⟨g, a, g'⟩ = none := by rw [started?, htaken, Option.map_none]
  have hreturned : returned? p ⟨g, a, g'⟩ = none := returned?_other ha
  cases o with
  | none => exact ⟨hfed, hfetched, hstarted, hreturned, sent_idle h ha hi⟩
  | some m => exact ⟨hfed, hfetched, hstarted, hreturned, sent_idle h ha hi⟩

end Moment

namespace Gateway

variable {g g' g₁ : Gateway} {p : ProcessId} {r : SessionRef} {l l' : SessionLoop} {s : Session}
  {a : Act} {e : LoopEvent} {ahead asked owed : List Message} {m : Message}

theorem setInbound_loop {c : Channel Message} (hl : g.process? p = some (.sessionLoop l)) :
    (g.setInbound p l c).process? p = some (.sessionLoop { l with inbound := c }) := by
  have hset : (g.setProcess p (.sessionLoop { l with inbound := c })).process? p =
      some (.sessionLoop { l with inbound := c }) := by
    rw [process?_setProcess, if_pos rfl, hl]
    rfl
  unfold setInbound
  dsimp only
  split
  · exact (process?_of_inner inner_wake).trans hset
  · exact hset

theorem loop?_eq (hl : g.process? p = some (.sessionLoop l)) : g.loop? p = some l := by
  rw [loop?, hl]

theorem feed_cases (hl : g.process? p = some (.sessionLoop l)) :
    (l.inbound.receiving = true ∧ g.feed p m = (.sent, g.setInbound p l (l.inbound.push m))) ∨
      (g.feed p m).1 ≠ .sent ∧ (g.feed p m).2 = g := by
  have hoffer : l.inbound.receiving = true ∧ l.inbound.offer m = (.sent, l.inbound.push m) ∨
      (l.inbound.offer m).1 ≠ .sent := by
    unfold Channel.offer
    split
    · exact .inr nofun
    · rename_i hreceiving
      split
      · exact .inl ⟨by simpa using hreceiving, rfl⟩
      · exact .inr nofun
  rcases hoffer with ⟨hreceiving, hsent⟩ | hturned
  · exact .inl ⟨hreceiving, by simp [feed, loop?_eq hl, hsent]⟩
  · exact .inr ⟨by simpa [feed, loop?_eq hl] using hturned, by simp [feed, loop?_eq hl, hturned]⟩

theorem step_other (hn : g.Numbered) (hl : g.process? p = some (.sessionLoop l))
    (hi : g.invocation? p = none) (h : g.perform a = some g') (ha : a ≠ .control p) :
    ∃ e, Moment.ShowsLoop p r e ⟨g, a, g'⟩ ∧
      (g'.process? p = none ∧ e = .quiet ∨
        ∃ l', l.Step r e l' ∧ g'.process? p = some (.sessionLoop l') ∧
          ((∀ poll, a ≠ .settleTool p poll) → l'.stage = l.stage)) := by
  by_cases hnamed : a.process? = some p
  · cases a with
    | feed q m =>
        cases hnamed
        cases h
        rcases feed_cases hl with ⟨hreceiving, hfeed⟩ | ⟨hturned, hsame⟩
        · refine ⟨.fed m, Moment.showsLoop_other (o := some m) rfl hi ha ?_,
            .inr ⟨_, .fed hreceiving, ?_, fun _ => rfl⟩⟩
          · exact if_pos ⟨rfl, by rw [hfeed]⟩
          · rw [hfeed]
            exact setInbound_loop hl
        · refine ⟨.quiet, Moment.showsLoop_other (o := none) rfl hi ha ?_, .inr ⟨l, .idle, ?_, fun _ => rfl⟩⟩
          · exact if_neg fun hsent => hturned hsent.2
          · rw [hsame, hl]
    | hangUp q =>
        cases hnamed
        cases h
        refine ⟨.quiet, Moment.showsLoop_other (o := none) rfl hi ha rfl, .inr ⟨_, .hungUp, ?_, fun _ => rfl⟩⟩
        rw [hangUp, loop?_eq hl]
        exact setInbound_loop hl
    | settleTool q poll =>
        cases hnamed
        obtain ⟨l', hl', hs⟩ := SessionLoop.step_settle r l poll
        refine ⟨.quiet, Moment.showsLoop_other (o := none) h hi ha rfl,
          .inr ⟨l', hs, ?_, fun hne => absurd rfl (hne poll)⟩⟩
        cases h
        rw [process?_settleTool, if_pos rfl, hl, Option.map_some, hl']
    | abort q =>
        cases hnamed
        refine ⟨.quiet, Moment.showsLoop_other (o := none) h hi ha rfl, .inl ⟨?_, rfl⟩⟩
        cases h
        simp [abort, hl, process?_removeProcess]
    | takePages q | cancelPages q | stopSweeper q | listen q =>
        cases hnamed
        refine ⟨.quiet, Moment.showsLoop_other (o := none) h hi ha rfl, .inr ⟨l, .idle, ?_, fun _ => rfl⟩⟩
        cases h
        simp [takePages, cancelPages, stopSweeper, listen, walkOf?, sweeper?, hl, hi]
    | produce q | consume q | swapSides q =>
        cases hnamed
        simp [perform, produce?, consume?, hi] at h
    | control q =>
        cases hnamed
        exact absurd rfl ha
    | _ => cases hnamed
  · have hkept := (simulated_perform hn h).spares.others p _ hnamed hl
    refine ⟨.quiet, Moment.showsLoop_other (o := none) h hi ha ?_, .inr ⟨l, .idle, hkept, fun _ => rfl⟩⟩
    cases a with
    | feed q m => exact if_neg fun hsent => hnamed (congrArg some hsent.1)
    | _ => rfl

theorem showsLoop_control (hl : g.process? p = some (.sessionLoop l))
    (hl₁ : g₁.process? p = some (.sessionLoop l))
    (hfetched : (if l.stage = .receiving then l.inbound.take?.map (·.1) else none) = e.fetched?)
    (hstarted : (Process.sessionLoop l).incoming?.map Prod.snd = e.started?)
    (hreturned : l'.stage.handling?.bind Handling.reply? = e.returned?)
    (hsent : g₁.outbox r = g.outbox r ++ e.sent) (hfed : e.fed? = none)
    (hrests : e.started? = none → g.Rests g₁) :
    let g' := g₁.setProcess p (.sessionLoop l')
    g'.process? p = some (.sessionLoop l') ∧ Moment.ShowsLoop p r e ⟨g, .control p, g'⟩ ∧
      (e.started? = none → g.Rests g') := by
  intro g'
  have hl' : g'.process? p = some (.sessionLoop l') := by
    rw [process?_setProcess, if_pos rfl, hl₁]
    rfl
  refine ⟨hl', ⟨hfed.symm, ?_, ?_, ?_, ?_⟩, fun h => ⟨(hrests h).store, (hrests h).sessions⟩⟩
  · simp only [Moment.fetched?, if_true, loop?_eq hl, Option.bind_some]
    exact hfetched
  · rw [← hstarted]
    simp [Moment.started?, Moment.taken?, hl]
  · rw [← hreturned, Moment.returned?_control, hl']
    rfl
  · have hbox : g'.outbox r = g₁.outbox r := outbox_of_desk desk_setProcess
    simp only [Moment.sent, if_true]
    rw [hbox, hsent, List.drop_left]

theorem step_quiet (hl : g.process? p = some (.sessionLoop l))
    (hfetched : (if l.stage = .receiving then l.inbound.take?.map (·.1) else none) = none)
    (hstarted : (Process.sessionLoop l).incoming?.map Prod.snd = none)
    (hreturned : l'.stage.handling?.bind Handling.reply? = none) (hs : l.Step r .quiet l') :
    let g' := g.setProcess p (.sessionLoop l')
    ∃ e l', l.Step r e l' ∧ g'.process? p = some (.sessionLoop l') ∧
      Moment.ShowsLoop p r e ⟨g, .control p, g'⟩ ∧ (e.started? = none → g.Rests g') :=
  ⟨.quiet, l', hs, showsLoop_control hl hl hfetched hstarted hreturned (List.append_nil _).symm rfl
    fun _ => .refl⟩

theorem step_control (hn : g.Numbered) (hl : g.process? p = some (.sessionLoop l))
    (howes : l.stage.Owes r ahead asked owed) (hopen : g.IsOpen r)
    (hfind : g.find? l.sessionId = some (r, s)) (h : g.control? p = some g') :
    ∃ e l', l.Step r e l' ∧ g'.process? p = some (.sessionLoop l') ∧
      Moment.ShowsLoop p r e ⟨g, .control p, g'⟩ ∧ (e.started? = none → g.Rests g') := by
  obtain ⟨x, hx, h⟩ := Option.bind_eq_some_iff.mp h
  cases hl.symm.trans hx
  obtain ⟨l', g₁, hstep, rfl⟩ := of_staged h
  obtain ⟨id, inbound, stage⟩ := l
  cases howes with
  | receiving =>
      simp only [advanceLoop?] at hstep
      cases htake : inbound.take? with
      | none =>
          rw [htake] at hstep
          dsimp only at hstep
          split at hstep <;> cases hstep
          exact step_quiet hl (by simp [htake]) rfl rfl
            (.stopped rfl (Channel.queue_of_take?_none htake))
      | some taken =>
          obtain ⟨m, woken, c⟩ := taken
          have hqueue := Channel.queue_of_take? htake
          have hfetched : (if LoopStage.receiving = .receiving then inbound.take?.map (·.1)
              else none) = (LoopEvent.fetched m).fetched? := by
            rw [if_pos rfl, htake]
            rfl
          rw [htake] at hstep
          dsimp only at hstep
          split at hstep
          · rename_i hname
            cases hstep
            have hne : p ≠ g.nextProcess := by
              rintro rfl
              cases (hn _ (Nat.le_refl _)).symm.trans hl
            exact ⟨.fetched m, _, .forked rfl hqueue hname, showsLoop_control hl
              (by rw [process?_spawn hn, if_neg hne, hl]) hfetched rfl rfl
              ((outbox_of_desk desk_spawn).trans (List.append_nil _).symm) rfl fun _ => rests_spawn⟩
          · rename_i hname
            cases hstep
            exact ⟨.fetched m, _, .fetched rfl hqueue hname,
              showsLoop_control hl hl hfetched rfl rfl (List.append_nil _).symm rfl fun _ => .refl⟩
  | @fetched id' m hname =>
      obtain rfl : g₁ = (g.handle id' m).2 := (congrArg Prod.snd (Option.some.inj hstep)).symm
      have hl₁ : (g.handle id' m).2.process? p = some _ :=
        (spares_handled hn handled_handle).others p _ (by rintro ⟨⟩) hl
      have hbox : (g.handle id' m).2.outbox r = g.outbox r ++ [] :=
        outbox_handle.trans (List.append_nil _).symm
      have hstage : l' = ⟨id, inbound, .answering (.handling (g.handle id' m).1)⟩ :=
        (congrArg Prod.fst (Option.some.inj hstep)).symm
      rcases met_or_calls (g := g) id' hname with ⟨reply, hdone, hmet⟩ | ⟨request, hid, hcalling⟩
      · rw [hdone] at hstage
        subst hstage
        exact ⟨.handled m reply, _, .handled rfl hmet,
          showsLoop_control hl hl₁ rfl rfl rfl hbox rfl (by rintro ⟨⟩)⟩
      · rw [hcalling] at hstage
        subst hstage
        exact ⟨.started m, _, .started rfl hid,
          showsLoop_control hl hl₁ rfl rfl rfl hbox rfl (by rintro ⟨⟩)⟩
  | @calling m request poll hid =>
      simp only [advanceLoop?, answer?, handle?, Option.map_map, Option.map_eq_some_iff] at hstep
      obtain ⟨reply, hreply, heq⟩ := hstep
      cases heq
      exact ⟨.returned reply, _, .returned rfl (answers_reply? hreply),
        showsLoop_control hl hl rfl rfl rfl (List.append_nil _).symm rfl fun _ => .refl⟩
  | unasked =>
      cases hstep
      exact step_quiet hl rfl rfl rfl (.moved (by rintro _ _ _ ⟨⟩; exact .sent) (by rintro ⟨⟩))
  | @answered m =>
      cases hstep
      exact step_quiet hl rfl rfl rfl (.moved (by rintro _ _ _ ⟨⟩; exact .replying) (by rintro ⟨⟩))
  | @replying m =>
      simp only [advanceLoop?, answer?, hfind] at hstep
      cases hstep
      exact step_quiet hl rfl rfl rfl (.moved (by rintro _ _ _ ⟨⟩; exact .sending) (by rintro ⟨⟩))
  | @sending d =>
      have hl₁ : (g.deliver p r d).2.process? p = some _ :=
        (process?_of_inner inner_deliver).trans hl
      have hrests : g.Rests (g.deliver p r d).2 := rests_deliver
      have hdelivered := delivered_deliver (g := g) (p := p) (r := r) d
      simp only [advanceLoop?, answer?] at hstep
      generalize g.deliver p r d = x at hl₁ hrests hdelivered hstep
      obtain ⟨state, g₂⟩ := x
      cases hdelivered with
      | sent hbox =>
          cases hstep
          exact ⟨.queued d.message, _, .queued rfl, showsLoop_control hl hl₁ rfl rfl rfl hbox rfl
            fun _ => hrests⟩
      | @pending d' _ hbox hmessage =>
          dsimp only at hstep
          split at hstep <;> cases hstep
          refine ⟨.quiet, _, ?_,
            showsLoop_control hl hl₁ rfl rfl rfl (hbox.trans (List.append_nil _).symm) rfl
              fun _ => hrests⟩
          exact .moved (by rintro _ _ _ ⟨⟩; exact hmessage ▸ .sending) (by rintro ⟨⟩)
      | failed hclosed => exact absurd hopen hclosed
  | sent =>
      cases hstep
      exact step_quiet hl rfl rfl rfl (.moved (by rintro _ _ _ ⟨⟩; exact .receiving) (by rintro ⟨⟩))
  | stopped => cases hstep

theorem step_perform {id : String} {log : LoopLog} (hn : g.Numbered)
    (hl : g.process? p = some (.sessionLoop l)) (ht : l.Tends id r log) (hopen : g.IsOpen r)
    (hfind : g.find? id = some (r, s)) (h : g.perform a = some g') :
    ∃ e, Moment.ShowsLoop p r e ⟨g, a, g'⟩ ∧
      (g'.process? p = none ∧ e = .quiet ∨
        ∃ l', l.Step r e l' ∧ g'.process? p = some (.sessionLoop l')) := by
  obtain ⟨ahead, asked, owed, howes, -⟩ := ht.owes
  by_cases ha : a = .control p
  · subst ha
    obtain ⟨e, l', hs, hl', hshows, -⟩ := step_control hn hl howes hopen (ht.named ▸ hfind) h
    exact ⟨e, hshows, .inr ⟨l', hs, hl'⟩⟩
  · have hi : g.invocation? p = none := (invocation?_eq hl).trans howes.invocation?
    obtain ⟨e, hshows, hgone | ⟨l', hs, hl', -⟩⟩ := step_other hn hl hi h ha
    · exact ⟨e, hshows, .inl hgone⟩
    · exact ⟨e, hshows, .inr ⟨l', hs, hl'⟩⟩

theorem gone_perform (hn : g.Numbered) (hlt : p < g.nextProcess) (hp : g.process? p = none)
    (h : g.perform a = some g') :
    Moment.ShowsLoop p r .quiet ⟨g, a, g'⟩ ∧ g'.process? p = none := by
  have hi : g.invocation? p = none := by simp [invocation?, hp]
  have ha : a ≠ .control p := by
    rintro rfl
    obtain ⟨x, hx, -⟩ := Option.bind_eq_some_iff.mp h
    cases hp.symm.trans hx
  refine ⟨Moment.showsLoop_other (o := none) h hi ha ?_, ?_⟩
  · cases a with
    | feed q m =>
        refine if_neg fun hsent => ?_
        have hl : g.loop? p = none := by simp [loop?, hp]
        simp [feed, hl] at hsent
    | _ => rfl
  · cases hx : g'.process? p with
    | none => rfl
    | some x =>
        have hge := ((simulated_perform hn h).spares.fresh p x hp hx).1
        exact absurd hlt (Nat.not_lt.mpr hge)

theorem forked_control {woken : Option ProcessId} {c : Channel Message} (hn : g.Numbered)
    (hl : g.process? p = some (.sessionLoop l)) (hstage : l.stage = .receiving)
    (htake : l.inbound.take? = some (m, woken, c)) (hname : m.methodName = Method.tasksSend.name)
    (h : g.control? p = some g') :
    ∃ id, g'.process? g.nextProcess = some (.answer id (.handling (.start id m))) := by
  obtain ⟨x, hx, h⟩ := Option.bind_eq_some_iff.mp h
  cases hl.symm.trans hx
  obtain ⟨l', g₁, hstep, rfl⟩ := of_staged h
  simp only [advanceLoop?, hstage, htake, hname, if_true] at hstep
  cases hstep
  have hne : g.nextProcess ≠ p := by
    rintro rfl
    cases (hn _ (Nat.le_refl _)).symm.trans hl
  exact ⟨l.sessionId, by rw [process?_setProcess, if_neg hne, process?_spawn hn, if_pos rfl]⟩

theorem canStep_loop (hl : g.process? p = some (.sessionLoop l))
    (h : ∃ x, g.advanceLoop? p l = some x) : g.CanStep p := by
  obtain ⟨⟨l', g₁⟩, hstep⟩ := h
  exact ⟨.control p, by simp, g₁.setProcess p (.sessionLoop l'),
    by simp [perform, control?, hl, hstep]⟩

theorem awaitsTool_perform (hn : g.Numbered) (hl : g.process? p = some (.sessionLoop l))
    (howes : l.stage.Owes r ahead asked owed) (hwaits : g.AwaitsTool p)
    (h : g.perform a = some g') :
    (∃ poll, a = .settleTool p poll) ∨ g'.process? p = none ∨ g'.AwaitsTool p := by
  obtain ⟨request, hcalling⟩ := hwaits
  by_cases ha : a = .control p
  · subst ha
    obtain ⟨h', g₁, y, hhandle, -⟩ := handles_control h hcalling rfl
    cases hhandle
  · by_cases hsettle : ∃ poll, a = .settleTool p poll
    · exact .inl hsettle
    · have hi : g.invocation? p = none := (invocation?_eq hl).trans howes.invocation?
      obtain ⟨e, -, ⟨hgone, -⟩ | ⟨l', -, hl', hstage⟩⟩ := step_other (r := r) hn hl hi h ha
      · exact .inr (.inl hgone)
      · refine .inr (.inr ⟨request, ?_⟩)
        rw [hl] at hcalling
        rw [hl', ← hcalling]
        exact congrArg LoopStage.handling? (hstage fun poll heq => hsettle ⟨poll, heq⟩)

theorem loop_goes_on (hl : g.process? p = some (.sessionLoop l))
    (howes : l.stage.Owes r ahead asked owed) (hne : l.stage ≠ .stopped) :
    (l.stage = .receiving ∧ l.inbound.queue = [] ∧ l.inbound.attached = true) ∨ g.CanStep p ∨
      g.AwaitsTool p ∨ ∃ d, g.AwaitsRoom p r d := by
  obtain ⟨id, inbound, stage⟩ := l
  cases howes with
  | receiving =>
      cases htake : inbound.take? with
      | some taken =>
          refine .inr (.inl (canStep_loop hl ?_))
          simp only [advanceLoop?, htake]
          split <;> exact ⟨_, rfl⟩
      | none =>
          cases hattached : inbound.attached with
          | true => exact .inl ⟨rfl, Channel.queue_of_take?_none htake, rfl⟩
          | false =>
              exact .inr (.inl (canStep_loop hl ⟨_, by simp [advanceLoop?, htake, hattached]; rfl⟩))
  | @calling m request poll hid =>
      cases poll with
      | pending => exact .inr (.inr (.inl ⟨request, by rw [hl]; rfl⟩))
      | ok | error => exact .inr (.inl (canStep_loop hl ⟨_, rfl⟩))
  | replying =>
      refine .inr (.inl (canStep_loop hl ?_))
      simp only [advanceLoop?, answer?]
      split <;> exact ⟨_, rfl⟩
  | @sending d =>
      right
      generalize hdel : g.deliver p r d = x
      obtain ⟨state, g₁⟩ := x
      cases state with
      | sent | failed =>
          exact .inl (canStep_loop hl ⟨_, by simp [advanceLoop?, answer?, hdel]; rfl⟩)
      | pending d' =>
          by_cases hsame : d' = d
          · subst hsame
            exact .inr (.inr ⟨_, awaitsRoom_of_deliver hdel⟩)
          · exact .inl (canStep_loop hl ⟨_, by simp [advanceLoop?, answer?, hdel, hsame]; rfl⟩)
  | fetched | unasked | answered | sent => exact .inr (.inl (canStep_loop hl ⟨_, rfl⟩))
  | stopped => exact absurd rfl hne

end Gateway

end AgentGateway
