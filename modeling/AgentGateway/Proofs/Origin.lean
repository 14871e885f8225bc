import AgentGateway.Proofs.History
import AgentGateway.Proofs.Kindred

namespace AgentGateway

namespace Workshop

variable {w w' : Workshop} {ds : List Deed} {d : Deed} {p q : ProcessId} {k : Token}
  {s s' : Option Subscriber} {t t' : Task} {i : Invocation}

theorem Step.nextToken_le (h : Step w d w') : w.nextToken ≤ w'.nextToken := by
  cases h with
  | watched | began => exact Nat.le_succ _
  | halted => exact Nat.le_of_eq nextToken_signal.symm
  | lost => exact Nat.le_of_eq nextToken_signal.symm
  | @cancelled _ _ _ token =>
      cases token with
      | none => exact Nat.le_refl _
      | some k => exact Nat.le_of_eq nextToken_signal.symm
  | _ => exact Nat.le_refl _

theorem Step.signalled_mono (h : Step w d w') (hk : k ∈ w.signalled) : k ∈ w'.signalled := by
  cases h with
  | halted => exact mem_signal.mpr (.inr hk)
  | lost => exact mem_signal.mpr (.inr hk)
  | @cancelled _ _ _ token =>
      cases token with
      | none => exact hk
      | some k => exact mem_signal.mpr (.inr hk)
  | _ => exact hk

theorem Step.signalled_lost (h : Step w d w') (hd : d = .lost p k) : k ∈ w'.signalled := by
  cases h with
  | lost =>
      cases hd
      exact mem_signal.mpr (.inl rfl)
  | forwarded => split at hd <;> cases hd
  | _ => cases hd

namespace Path

theorem began_lt (h : Path ds w) (hb : .began p s k t ∈ ds) : k < w.nextToken := by
  induction h with
  | start h => cases hb
  | snoc hpath hstep hfit ih =>
      rcases List.mem_append.mp hb with hb | hb
      · exact Nat.lt_of_lt_of_le (ih hb) hstep.nextToken_le
      · obtain ⟨rfl, hent⟩ := hstep.entry hpath.sound (List.mem_singleton.mp hb).symm
        exact (hpath.sound.step hstep).slot_lt t.id _ (by simp [slot, hent])

theorem began_unique (h : Path ds w) (hb : .began p s k t ∈ ds) (hb' : .began q s' k t' ∈ ds) :
    q = p ∧ s' = s ∧ t' = t := by
  induction h with
  | start h => cases hb
  | @snoc ds w w' d hpath hstep hfit ih =>
      have hnew {p : ProcessId} {s : Option Subscriber} {t : Task} (hd : .began p s k t ∈ [d]) :
          d = .began p s k t ∧ k = w.nextToken := by
        have hd := (List.mem_singleton.mp hd).symm
        exact ⟨hd, (hstep.entry hpath.sound hd).1⟩
      rcases List.mem_append.mp hb with hb | hb <;> rcases List.mem_append.mp hb' with hb' | hb'
      · exact ih hb hb'
      · exact absurd (hnew hb').2 (Nat.ne_of_lt (hpath.began_lt hb))
      · exact absurd (hnew hb).2 (Nat.ne_of_lt (hpath.began_lt hb'))
      · cases (hnew hb).1.symm.trans (hnew hb').1
        exact ⟨rfl, rfl, rfl⟩

theorem began_of_work (h : Path ds w) (hi : w.work p = some i) :
    ∃ t, .began p i.subscriber i.token t ∈ ds := by
  induction h generalizing i with
  | start h => simp [h.work] at hi
  | snoc hpath hstep hfit ih =>
      rcases hstep.work hi with ⟨j, hj, -, htok, hsub⟩ | ⟨-, t, hd, -⟩
      · obtain ⟨t, ht⟩ := ih hj
        exact ⟨t, by simp [← htok, ← hsub, ht]⟩
      · exact ⟨t, by simp [hd]⟩

theorem signalled_of_lost (h : Path ds w) (hl : .lost p k ∈ ds) : k ∈ w.signalled := by
  induction h with
  | start h => cases hl
  | snoc hpath hstep hfit ih =>
      rcases List.mem_append.mp hl with hl | hl
      · exact hstep.signalled_mono (ih hl)
      · exact hstep.signalled_lost (List.mem_singleton.mp hl).symm

end Path

end Workshop

def LoopStage.handling? : LoopStage → Option Handling
  | .answering (.handling h) => some h
  | _ => none

def Handling.reply? : Handling → Option (Option Message)
  | .done reply => some reply
  | _ => none

theorem Handling.eq_done_of_reply? {h : Handling} {reply : Option Message}
    (hh : h.reply? = some reply) : h = .done reply := by
  cases h with
  | start | running | calling => cases hh
  | done o => exact congrArg Handling.done (Option.some.inj hh)

def Handling.request? : Handling → Option RequestId
  | .running _ request _ | .calling request _ => some request
  | _ => none

theorem Handling.request?_settle {poll : ToolPoll} {h : Handling} :
    (h.settle poll).request? = h.request? := by
  unfold settle
  split <;> rfl

namespace Process

def handling? : Process → Option Handling
  | .message h => some h
  | .answer _ (.handling h) => some h
  | .sessionLoop l => l.stage.handling?
  | _ => none

variable {x y : Process} {i : Invocation} {request : RequestId} {n : Option Nat}

theorem of_handling {h : Handling} (hx : x.handling? = some h) :
    x = .message h ∨ (∃ id, x = .answer id (.handling h)) ∨
      ∃ id inbound, x = .sessionLoop ⟨id, inbound, .answering (.handling h)⟩ := by
  unfold handling? at hx
  split at hx
  · cases hx
    exact .inl rfl
  · cases hx
    exact .inr (.inl ⟨_, rfl⟩)
  · rename_i l
    obtain ⟨id, inbound, stage⟩ := l
    unfold LoopStage.handling? at hx
    split at hx <;> cases hx
    rename_i hstage
    cases hstage
    exact .inr (.inr ⟨id, inbound, rfl⟩)
  · cases hx

theorem invocation?_of_running (h : x.handling? = some (.running i request n)) :
    x.invocation? = some i := by
  obtain rfl | ⟨id, rfl⟩ | ⟨id, inbound, rfl⟩ := of_handling h <;> rfl

theorem handling?_settle {poll : ToolPoll} :
    (x.settle poll).handling? = x.handling?.map (Handling.settle poll) := by
  unfold settle
  split
  · rfl
  · rfl
  · rename_i l
    obtain ⟨id, inbound, stage⟩ := l
    dsimp only
    split
    · rfl
    · rename_i hstage
      have hnone : stage.handling? = none := by
        unfold LoopStage.handling?
        split
        · exact (hstage _ rfl).elim
        · rfl
      rw [handling?, hnone, Option.map_none]
  · rename_i hmessage hanswer hloop
    have hnone : x.handling? = none := by
      unfold handling?
      split
      · exact (hmessage _ rfl).elim
      · exact (hanswer _ _ rfl).elim
      · exact (hloop _ rfl).elim
      · rfl
    rw [hnone, Option.map_none]

theorem request?_withInvocation :
    (x.withInvocation i).handling?.bind Handling.request? = x.handling?.bind Handling.request? := by
  unfold withInvocation
  split
  · rfl
  · rfl
  · split
    · rename_i hstage
      rw [handling?, handling?, hstage]
      rfl
    · rfl
  · rfl
  · rfl

theorem Kindred.request? (h : Kindred x y) :
    y.handling?.bind Handling.request? = x.handling?.bind Handling.request? := by
  cases h with
  | same | inbound | items => rfl
  | invocation => exact request?_withInvocation
  | settled =>
      rw [handling?_settle]
      cases x.handling? with
      | none => rfl
      | some h => exact Handling.request?_settle

theorem Kindred.running (h : Kindred x y) (hx : x.handling? = some (.running i request n)) :
    ∃ j, y.handling? = some (.running j request n) := by
  cases h with
  | same => exact ⟨i, hx⟩
  | inbound => exact ⟨i, hx⟩
  | items => cases hx
  | settled => exact ⟨i, by rw [handling?_settle, hx]; rfl⟩
  | @invocation _ j =>
      refine ⟨j, ?_⟩
      obtain rfl | ⟨id, rfl⟩ | ⟨id, inbound, rfl⟩ := of_handling hx <;> rfl

end Process

namespace Gateway

open Json (Value)

variable {g g' : Gateway} {q : ProcessId} {id : String} {m : Message} {x : Process}

/-- That a request of a peer, on a session and under an id, passes all checks that come before the
task of its params is worked on: with that task, once it has been sent the message. -/
structure Accepts (method : Method) (id : String) (m : Message) (peer : Subscriber)
    (params : TaskSendParams) (task : Task) (g : Gateway) : Prop where
  named : m.method = some method.name
  identified : m.id = some peer.request
  offered : g.settings.tasksEnabled = true
  decoded : decodeParams TaskSendParams.decode m.params = .ok params
  taken : ∃ s store, g.get id = .ok (peer.session, s) ∧
    (g.validate peer.session s m).1 = .ok () ∧
    g.store.send params s.context g.nextToken g.timestamp = .ok (task, store)

theorem connect_connecting {r : SessionRef} {s : Session} (hs : g.session? r = some s)
    (hc : s.status = .connecting) :
    g.connect r = .ok (g.setSession r { s with status := .connected }) := by
  have hmark : s.markConnected = .ok { s with status := .connected } := by
    simp [Session.markConnected, Session.transition, hc, SessionStatus.rank]
  simp [connect, hs, hmark]

theorem dispatch_onTasks {r : SessionRef} {s : Session} {method : Method} (request : RequestId)
    (params : Option Value) (hs : g.session? r = some s) (htasks : method.onTasks = true)
    (hoffered : g.settings.tasksEnabled = true) : ∃ sessions,
      g.dispatch method.name r s request params =
        { g with sessions }.dispatchTask method r s request params := by
  have hname : Method.ofName? method.name = some method := by
    cases method <;> simp [Method.onTasks] at htasks <;> rfl
  simp only [dispatch, hname, htasks, hoffered, if_true, Bool.not_true, Bool.false_eq_true,
    if_false]
  by_cases hc : s.status = .connecting
  · rw [if_pos hc, connect_connecting hs hc]
    exact ⟨_, rfl⟩
  · rw [if_neg hc]
    exact ⟨g.sessions, rfl⟩

theorem handle_valid {r : SessionRef} {s s' : Session} {name : String} {request : RequestId}
    (hget : g.get id = .ok (r, s)) (hvalid : g.validate r s m = (.ok (), g.setSession r s'))
    (hm : m.method = some name) (hid : m.id = some request) :
    let dispatched := (g.setSession r s').dispatch name r s' request m.params
    g.handle id m = (dispatched.1.handling request, dispatched.2) := by
  intro dispatched
  have hs : (g.setSession r s').session? r = some s' := by
    simp [session?, setSession, lt_of_session? (session?_of_get hget)]
  obtain ⟨d, hd⟩ : ∃ d, (g.setSession r s').dispatch name r s' request m.params = d := ⟨_, rfl⟩
  simp only [dispatched, handle, hget, hvalid, handleValid, hm, hid, handleRequest, hs, hd]
  obtain ⟨x, g'⟩ := d
  cases x <;> rfl

theorem handle_onTasks {r : SessionRef} {s : Session} {method : Method} {request : RequestId}
    (hget : g.get id = .ok (r, s)) (hvalid : (g.validate r s m).1 = .ok ())
    (hm : m.method = some method.name) (hid : m.id = some request)
    (htasks : method.onTasks = true) (hoffered : g.settings.tasksEnabled = true) :
    ∃ sessions s', s'.context = s.context ∧
      let dispatched := { g with sessions }.dispatchTask method r s' request m.params
      g.handle id m = (dispatched.1.handling request, dispatched.2) := by
  obtain ⟨limiters, hlimiters⟩ := Session.validate_eq g.settings.validation g.now (s.touch g.now) m
  obtain ⟨s', hs', hcontext⟩ : ∃ s',
      ((Pipeline.standard g.settings.validation).validate g.now (s.touch g.now) m).2 = s' ∧
        s'.context = s.context := ⟨_, hlimiters, rfl⟩
  have hv : g.validate r s m = (.ok (), g.setSession r s') := by
    rw [← hs']
    exact Prod.ext hvalid rfl
  have hsession : (g.setSession r s').session? r = some s' := by
    simp [session?, setSession, lt_of_session? (session?_of_get hget)]
  obtain ⟨sessions, hd⟩ := dispatch_onTasks request m.params hsession htasks hoffered
  have hh := handle_valid hget hv hm hid
  rw [hd] at hh
  exact ⟨sessions, s', hcontext, hh⟩

def accepted (method : Method) (id : String) (m : Message) (g : Gateway) :
    Option (Subscriber × TaskSendParams × Task) := do
  let request ← m.id
  let (r, s) ← (g.get id).toOption
  let params ← (decodeParams TaskSendParams.decode m.params).toOption
  let (task, _) ← (g.store.send params s.context g.nextToken g.timestamp).toOption
  if m.method = some method.name ∧ g.settings.tasksEnabled = true ∧
      (g.validate r s m).1 = .ok () then some (⟨r, request⟩, params, task) else none

theorem eq_ok_of_toOption {α β : Type} {x : Except α β} {y : β} (h : x.toOption = some y) :
    x = .ok y := by
  cases x with
  | error e => cases h
  | ok z => exact congrArg Except.ok (Option.some.inj h)

theorem accepts_of_accepted {method : Method} {peer : Subscriber} {params : TaskSendParams}
    {task : Task} (h : g.accepted method id m = some (peer, params, task)) :
    g.Accepts method id m peer params task := by
  obtain ⟨request, hid, h⟩ := Option.bind_eq_some_iff.mp h
  obtain ⟨⟨r, s⟩, hget, h⟩ := Option.bind_eq_some_iff.mp h
  obtain ⟨p, hp, h⟩ := Option.bind_eq_some_iff.mp h
  obtain ⟨⟨t, store⟩, hsend, h⟩ := Option.bind_eq_some_iff.mp h
  obtain ⟨⟨hm, hoffered, hvalid⟩, heq⟩ := Option.ite_none_right_eq_some.mp h
  cases heq
  exact ⟨hm, hid, hoffered, eq_ok_of_toOption hp, s, store, eq_ok_of_toOption hget, hvalid,
    eq_ok_of_toOption hsend⟩

theorem of_incoming (hx : g.process? q = some x) (hin : x.incoming? = some (id, m))
    (h : g.control? q = some g') :
    ∃ y, y.handling? = some (g.handle id m).1 ∧ g' = (g.handle id m).2.setProcess q y := by
  obtain ⟨x', hx', h⟩ := Option.bind_eq_some_iff.mp h
  cases hx.symm.trans hx'
  unfold Process.incoming? at hin
  split at hin <;> cases hin <;> cases h <;> exact ⟨_, rfl, rfl⟩

theorem answer?_handling {id : String} {h : Handling} (hopen : h.reply? = none) :
    g.answer? q id (.handling h) = (g.handle? h).map fun (h, g) => (.handling h, g) := by
  cases h with
  | done => cases hopen
  | start | running | calling => rfl

theorem handles_control {h : Handling} (hstep : g.control? q = some g')
    (hx : (g.process? q).bind Process.handling? = some h) (hopen : h.reply? = none) :
    ∃ h' g₁ y, g.handle? h = some (h', g₁) ∧ g' = g₁.setProcess q y ∧ y.handling? = some h' := by
  obtain ⟨x, hx, hhandling⟩ := Option.bind_eq_some_iff.mp hx
  obtain ⟨x', hx', hstep⟩ := Option.bind_eq_some_iff.mp hstep
  cases hx.symm.trans hx'
  obtain rfl | ⟨id, rfl⟩ | ⟨id, inbound, rfl⟩ := Process.of_handling hhandling
  · obtain ⟨h', g₁, hh, rfl⟩ := of_staged hstep
    exact ⟨h', g₁, _, hh, rfl, rfl⟩
  · obtain ⟨a, g₁, ha, rfl⟩ := of_staged hstep
    rw [answer?_handling hopen, Option.map_eq_some_iff] at ha
    obtain ⟨⟨h', g₂⟩, hh, heq⟩ := ha
    cases heq
    exact ⟨h', g₁, _, hh, rfl, rfl⟩
  · obtain ⟨l, g₁, hl, rfl⟩ := of_staged hstep
    simp only [advanceLoop?, answer?_handling hopen, Option.map_map, Option.map_eq_some_iff] at hl
    obtain ⟨⟨h', g₂⟩, hh, heq⟩ := hl
    cases heq
    exact ⟨h', g₂, _, hh, rfl, rfl⟩

theorem beginTask_eq {s : Session} {params : Option Value} {p : TaskSendParams} {task : Task}
    {store : TaskStore} (subscriber : Option Subscriber)
    (hp : decodeParams TaskSendParams.decode params = .ok p)
    (hsend : g.store.send p s.context g.nextToken g.timestamp = .ok (task, store)) :
    g.beginTask s params subscriber =
      .ok (.start g.settings.chunkDelay task g.nextToken subscriber, p.historyLength,
        g.sent store) :=
  bind_eq_ok.mpr ⟨p, hp, bind_eq_ok.mpr ⟨(task, store), hsend, rfl⟩⟩

namespace Accepts

variable {peer : Subscriber} {params : TaskSendParams} {task : Task}

theorem send (h : g.Accepts .tasksSend id m peer params task) : ∃ sessions headers store,
    g.store.send params headers g.nextToken g.timestamp = .ok (task, store) ∧
    g.handle id m = (.running (.start g.settings.chunkDelay task g.nextToken none) peer.request
      params.historyLength, { g with sessions }.sent store) := by
  obtain ⟨s, store, hget, hvalid, hsend⟩ := h.taken
  obtain ⟨sessions, s', hcontext, hh⟩ :=
    handle_onTasks hget hvalid h.named h.identified rfl h.offered
  have hbegin := beginTask_eq (g := { g with sessions }) (s := s') none h.decoded (hcontext ▸ hsend)
  refine ⟨sessions, _, store, hsend, hh.trans ?_⟩
  simp only [dispatchTask, hbegin]
  rfl

theorem subscribe (h : g.Accepts .tasksSendSubscribe id m peer params task) :
    ∃ sessions headers store,
      g.store.send params headers g.nextToken g.timestamp = .ok (task, store) ∧
      g.handle id m = (.done none, (({ g with sessions }.sent store).spawn (.subscription
        (.running (.start g.settings.chunkDelay task g.nextToken (some peer))))).2) := by
  obtain ⟨s, store, hget, hvalid, hsend⟩ := h.taken
  obtain ⟨sessions, s', hcontext, hh⟩ :=
    handle_onTasks hget hvalid h.named h.identified rfl h.offered
  have hbegin := beginTask_eq (g := { g with sessions }) (s := s') (some peer) h.decoded
    (hcontext ▸ hsend)
  refine ⟨sessions, _, store, hsend, hh.trans ?_⟩
  simp only [dispatchTask, hbegin]
  rfl

end Accepts

end Gateway

namespace Moment

def Accepts (method : Method) (q : ProcessId) (peer : Subscriber) (params : TaskSendParams)
    (task : Task) (m : Moment) : Prop :=
  m.act = .control q ∧ ∃ id msg, (m.before.process? q).bind Process.incoming? = some (id, msg) ∧
    m.before.Accepts method id msg peer params task

def accepted (method : Method) (m : Moment) :
    Option (ProcessId × Subscriber × TaskSendParams × Task) :=
  match m.act with
  | .control q => ((m.before.process? q).bind Process.incoming?).bind fun (id, msg) =>
      (m.before.accepted method id msg).map (q, ·)
  | _ => none

theorem accepts_of_accepted {method : Method} {q : ProcessId} {peer : Subscriber}
    {params : TaskSendParams} {task : Task} {m : Moment}
    (h : m.accepted method = some (q, peer, params, task)) :
    m.Accepts method q peer params task := by
  unfold accepted at h
  split at h
  · rename_i hact
    obtain ⟨⟨id, msg⟩, hin, h⟩ := Option.bind_eq_some_iff.mp h
    obtain ⟨x, hx, heq⟩ := Option.map_eq_some_iff.mp h
    cases heq
    exact ⟨hact, id, msg, hin, Gateway.accepts_of_accepted hx⟩
  · cases h

def admits (method : Method) (P : ProcessId → Subscriber → TaskSendParams → Bool) (m : Moment) :
    Bool :=
  (m.accepted method).any fun (q, peer, params, _) => P q peer params

theorem exists_of_admits {method : Method} {P : ProcessId → Subscriber → TaskSendParams → Bool}
    {m : Moment} (h : m.admits method P = true) :
    ∃ q peer params task, m.Accepts method q peer params task ∧ P q peer params = true := by
  obtain ⟨⟨q, peer, params, task⟩, ha, hP⟩ := (Option.any_eq_true ..).mp h
  exact ⟨q, peer, params, task, accepts_of_accepted ha, hP⟩

structure Starts (p : ProcessId) (i : Invocation) (task : Task) (m : Moment) : Prop where
  idle : m.before.invocation? p = none
  begun : m.after.invocation? p = some i
  token : i.token = m.before.nextToken
  entry : m.after.store.find? task.id = some ⟨task, some i.token⟩

end Moment

section Run

open Gateway

variable {g₀ g₁ g g' : Gateway} {ms before between : List Moment} {ds : List Deed} {b : Moment}
  {a : Act} {p q : ProcessId} {i i₀ j : Invocation} {task : Task} {peer : Subscriber}
  {params : TaskSendParams} {request : RequestId} {n : Option Nat}

namespace Gateway

variable {id : String} {m : Message} {x : Process}

theorem starts_send (hx : g.process? q = some x) (hin : x.incoming? = some (id, m))
    (ha : g.Accepts .tasksSend id m peer params task) (hs : g.workshop.Sound)
    (h : g.control? q = some g') :
    ∃ i, Moment.Starts q i task ⟨g, .control q, g'⟩ ∧ i.subscriber = none ∧
      (g'.process? q).bind Process.handling? =
        some (.running i peer.request params.historyLength) := by
  obtain ⟨sessions, headers, store, hsend, hh⟩ := ha.send
  obtain ⟨y, hy, rfl⟩ := of_incoming hx hin h
  have hfind := (TaskStore.send_spec hsend).1
  have hid : task.id = params.id := hs.id_of_send hsend
  have hafter : ((g.handle id m).2.setProcess q y).process? q = some y := by
    rw [process?_setProcess, if_pos rfl, hh]
    exact congrArg (Option.map fun _ => y) hx
  have hrun : (((g.handle id m).2.setProcess q y).process? q).bind Process.handling? =
      some (.running (.start g.settings.chunkDelay task g.nextToken none) peer.request
        params.historyLength) := by
    rw [hafter, Option.bind_some, hy, hh]
  refine ⟨_, ⟨?_, ?_, rfl, ?_⟩, rfl, hrun⟩
  · rw [invocation?_eq hx]
    unfold Process.incoming? at hin
    split at hin <;> first | rfl | cases hin
  · rw [hafter, Option.bind_some] at hrun
    rw [invocation?_eq hafter]
    exact Process.invocation?_of_running hrun
  · rw [hh]
    exact (hfind _).trans (if_pos hid)

theorem starts_subscribe (hn : g.Numbered) (hx : g.process? q = some x)
    (hin : x.incoming? = some (id, m))
    (ha : g.Accepts .tasksSendSubscribe id m peer params task) (hs : g.workshop.Sound)
    (h : g.control? q = some g') :
    ∃ i, Moment.Starts g.nextProcess i task ⟨g, .control q, g'⟩ ∧ i.subscriber = some peer ∧
      g'.process? g.nextProcess = some (.subscription (.running i)) := by
  obtain ⟨sessions, headers, store, hsend, hh⟩ := ha.subscribe
  obtain ⟨y, -, rfl⟩ := of_incoming hx hin h
  have hfind := (TaskStore.send_spec hsend).1
  have hid : task.id = params.id := hs.id_of_send hsend
  have hfree : g.process? g.nextProcess = none := hn _ (Nat.le_refl _)
  have hne : g.nextProcess ≠ q := by
    rintro rfl
    cases hx.symm.trans hfree
  have hafter : ((g.handle id m).2.setProcess q y).process? g.nextProcess = some (.subscription
      (.running (.start g.settings.chunkDelay task g.nextToken (some peer)))) := by
    have hn' : ({ g with sessions }.sent store).Numbered := hn
    rw [process?_setProcess, if_neg hne, hh]
    exact (process?_spawn hn').trans (if_pos rfl)
  refine ⟨_, ⟨?_, ?_, rfl, ?_⟩, rfl, hafter⟩
  · simp [invocation?, hfree]
  · rw [invocation?_eq hafter]
    rfl
  · rw [hh]
    have hstore : (({ g with sessions }.sent store).spawn (.subscription
        (.running (.start g.settings.chunkDelay task g.nextToken (some peer))))).2.store = store :=
      store_of_inner inner_wake
    exact (congrArg (TaskStore.find? · task.id) hstore).trans ((hfind _).trans (if_pos hid))

end Gateway

namespace History

theorem token_lt (h : History ms ds g) (hi : g.invocation? p = some i) : i.token < g.nextToken := by
  have hlt := h.path.sound.token_lt (work_eq hi)
  exact hlt

theorem start_send (h : History ms ds b.before) (hstep : b.before.perform b.act = some b.after)
    (ha : b.Accepts .tasksSend q peer params task) :
    ∃ i, b.Starts q i task ∧ i.subscriber = none ∧
      (b.after.process? q).bind Process.handling? =
        some (.running i peer.request params.historyLength) := by
  obtain ⟨g, a, g'⟩ := b
  obtain ⟨hact, id, m, hin, ha⟩ := ha
  obtain rfl : a = .control q := hact
  obtain ⟨x, hx, hin⟩ := Option.bind_eq_some_iff.mp hin
  exact starts_send hx hin ha h.path.sound hstep

theorem start_subscribe (h : History ms ds b.before)
    (hstep : b.before.perform b.act = some b.after)
    (ha : b.Accepts .tasksSendSubscribe q peer params task) :
    ∃ i, b.Starts b.before.nextProcess i task ∧ i.subscriber = some peer ∧
      b.after.process? b.before.nextProcess = some (.subscription (.running i)) := by
  obtain ⟨g, a, g'⟩ := b
  obtain ⟨hact, id, m, hin, ha⟩ := ha
  obtain rfl : a = .control q := hact
  obtain ⟨x, hx, hin⟩ := Option.bind_eq_some_iff.mp hin
  exact starts_subscribe h.numbered hx hin ha h.path.sound hstep

theorem starts (h : History ms ds b.before) (hstep : b.before.perform b.act = some b.after)
    (hb : b.Starts p i task) :
    History (ms ++ [b]) (ds ++ [.began p i.subscriber i.token task]) b.after := by
  obtain ⟨d, hw, hh⟩ := h.snoc hstep
  have hidle : b.before.workshop.work p = none := by simp [workshop, hb.idle]
  rcases hw.work (work_eq hb.begun) with ⟨j, hj, -⟩ | ⟨-, t, hd, -⟩
  · cases hidle.symm.trans hj
  · have hd : d = .began p i.subscriber i.token t := hd
    obtain ⟨-, hent⟩ := hw.entry h.path.sound hd
    have hkey := hh.path.sound.slot_inj t.id task.id i.token (by simp [Workshop.slot, hent])
      (by simp [Workshop.slot, workshop, hb.entry])
    have hent : b.after.store.find? t.id = some ⟨t, some i.token⟩ := hent
    rw [hkey, hb.entry] at hent
    cases hent
    exact hd ▸ hh

theorem run (h : History ms ds g) {ns : List Moment} (hr : Run g ns g') :
    ∃ es, History (ms ++ ns) (ds ++ es) g' := by
  induction hr with
  | nil => exact ⟨[], by simpa using h⟩
  | snoc _ hstep ih =>
      obtain ⟨es, hh⟩ := ih
      obtain ⟨d, -, hh⟩ := hh.snoc hstep
      exact ⟨es ++ [d], by simpa using hh⟩

end History

theorem Run.stems (h₀ : g₀.IsNew) (hr : Run g₀ (before ++ b :: between) g)
    (hb : b.Starts p i₀ task) (hi : g.invocation? q = some i) (hk : i.token = i₀.token) :
    q = p ∧ i.subscriber = i₀.subscriber ∧ ∃ ds folded, History (before ++ b :: between) ds g ∧
      Workshop.Progress ds g.workshop q i.plain task folded := by
  obtain ⟨hrun, hstep, hrest⟩ := hr.split rfl
  obtain ⟨ds, hh⟩ := hrun.history h₀
  obtain ⟨es, hh⟩ := (hh.starts hstep hb).run hrest
  rw [List.append_assoc, List.singleton_append] at hh
  obtain ⟨t₀, folded, hp⟩ := hh.path.kept.progress q i.plain (work_eq hi)
  have hbegan : Deed.began p i₀.subscriber i₀.token task ∈
      ds ++ [.began p i₀.subscriber i₀.token task] ++ es := by simp
  obtain ⟨t, ht⟩ := hh.path.began_of_work (work_eq hi)
  obtain ⟨hq, hsub, -⟩ := hh.path.began_unique hbegan (hk ▸ ht)
  obtain ⟨s, hs⟩ := hp.begun
  obtain ⟨-, -, rfl⟩ := hh.path.began_unique hbegan (hk ▸ hs)
  exact ⟨hq, hsub, _, folded, hh, hp⟩

theorem Run.nextToken_le (hn : g₁.Numbered) (hr : Run g₁ ms g) : g₁.nextToken ≤ g.nextToken := by
  induction hr with
  | nil => exact Nat.le_refl _
  | snoc hrun hstep ih =>
      obtain ⟨-, d, hw, -⟩ := simulated_perform (hrun.numbered hn) hstep
      exact Nat.le_trans ih hw.nextToken_le

theorem Run.handles (hn : g₁.Numbered) (hr : Run g₁ ms g) (hk : i₀.token < g₁.nextToken)
    (h₁ : (g₁.process? p).bind Process.handling? = some (.running i₀ request n))
    (hi : g.invocation? p = some i) (htok : i.token = i₀.token) :
    (g.process? p).bind Process.handling? = some (.running i request n) := by
  induction hr generalizing i with
  | nil =>
      obtain ⟨x, hx, hrunning⟩ := Option.bind_eq_some_iff.mp h₁
      rw [invocation?_eq hx, Process.invocation?_of_running hrunning] at hi
      cases hi
      exact h₁
  | @snoc ms g a g' hrun hstep ih =>
      have hng := hrun.numbered hn
      obtain ⟨-, d, hw, -⟩ := simulated_perform hng hstep
      rcases hw.work (work_eq hi) with ⟨j, hj, -, hsame, -⟩ | ⟨-, t, -, hnew⟩
      · obtain ⟨k, hk, rfl⟩ := exists_of_work hj
        obtain ⟨x, hx, hrunning⟩ := Option.bind_eq_some_iff.mp (ih hk (hsame.trans htok))
        have hxi := Process.invocation?_of_running hrunning
        obtain ⟨y, hy, hyi⟩ := Option.bind_eq_some_iff.mp hi
        by_cases ha : a = .control p
        · -- a step of the process itself closes the invocation
          subst ha
          obtain ⟨x', z, g₂, hx', hwork, rfl⟩ := worked_control? hstep
          cases hx.symm.trans hx'
          rw [process?_setProcess, if_pos rfl, Option.map_eq_some_iff] at hy
          obtain ⟨-, -, rfl⟩ := hy
          cases hwork with
          | calm hnone | called hnone | handled hnone => cases hxi.symm.trans hnone
          | concluded _ _ hnone => cases hyi.symm.trans hnone
        · rcases kindred_perform hng hstep ha hy with ⟨x', hx', hkindred⟩ | ⟨hge, -⟩
          · cases hx.symm.trans hx'
            obtain ⟨j, hrunning⟩ := hkindred.running hrunning
            cases hyi.symm.trans (Process.invocation?_of_running hrunning)
            rw [hy]
            exact hrunning
          · cases hx.symm.trans (hng p hge)
      · have hlt := Nat.lt_of_lt_of_le hk (hrun.nextToken_le hn)
        exact absurd (hnew.symm.trans htok) (Nat.ne_of_gt hlt)

end Run

end AgentGateway
