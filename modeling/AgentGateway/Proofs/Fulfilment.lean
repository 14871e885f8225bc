import AgentGateway.Proofs.Conclusions
import AgentGateway.Proofs.Origin
import AgentGateway.Proofs.Upshot

namespace AgentGateway

open Gateway

namespace Workshop

variable {w w' : Workshop} {d : Deed}

theorem Step.maxHistory (h : Step w d w') : w'.store.maxHistory = w.store.maxHistory := by
  cases h with
  | halted | lost => exact congrArg TaskStore.maxHistory store_signal
  | began _ _ hsend => exact TaskStore.maxHistory_send hsend
  | took => exact TaskStore.maxHistory_update
  | concluded => exact TaskStore.maxHistory_finish
  | cancelled hc => exact TaskStore.maxHistory_cancel hc
  | _ => rfl

end Workshop

namespace Gateway

variable {g g' : Gateway} {p : ProcessId} {i : Invocation} {request : RequestId} {n : Option Nat}
  {e : Ending} {o : Upshot} {t : Task}

theorem IsNew.one_le_maxHistory (h : g.IsNew) : 1 ≤ g.store.maxHistory := by
  obtain ⟨settings, tools, epoch, rfl⟩ := h
  exact Nat.le_max_right ..

theorem handling_concluded (h : g.control? p = some g')
    (hx : (g.process? p).bind Process.handling? = some (.running i request n))
    (he : i.ending? = some e) : (g'.process? p).bind Process.handling? =
      some (.done (some ((g.concludeTask i e).replyTo request i.taskId n e))) := by
  obtain ⟨h', g₁, y, hstep, rfl, hy⟩ := handles_control h hx rfl
  rw [handle?, he] at hstep
  cases hstep
  obtain ⟨x, hx, -⟩ := Option.bind_eq_some_iff.mp hx
  have hstored : (g.concludeTask i e).process? p = some x := hx
  rw [process?_setProcess, if_pos rfl, hstored]
  exact hy

theorem find?_concluded {token : Option Token} (h : g.store.find? i.taskId = some ⟨t, token⟩)
    (ho : t.state = o.state) :
    (g.concludeTask i o.ending).store.find? i.taskId = some ⟨t, none⟩ := by
  change (g.store.finish i.taskId o.ending g.timestamp).2.find? i.taskId = _
  rw [TaskStore.find?_finish, if_pos rfl, h]
  exact congrArg (fun t => some (TaskEntry.mk t none)) (Upshot.conclude_eq ho)

theorem replyTo_eq {id : String} (h : g.store.find? id = some ⟨t, none⟩) :
    g.replyTo request id n o.ending = match o.error? with
      | none => .success request (t.withHistoryLength n).encode
      | some error => .failure (some request) error := by
  cases o with
  | completed | asking => simp [replyTo, Upshot.ending, Upshot.error?, TaskStore.get, h]
  | failing | refusing => rfl

end Gateway

theorem Workshop.Progress.fulfils {ds : List Deed} {w : Workshop} {p : ProcessId} {i : Invocation}
    {task : Task} {folded : List Update} {e : Ending} {trigger : TaskMessage}
    (hp : Progress ds w p i task folded) (he : i.ending? = some e)
    (hlost : .lost p i.token ∉ ds) (hquiet : i.token ∉ w.signalled)
    (htrigger : task.history.getLast? = some trigger)
    (hlength : task.history.length ≤ w.store.maxHistory) :
    let o := Upshot.ofTask task trigger
    e = o.ending ∧ ∃ t token, w.store.find? i.taskId = some ⟨t, token⟩ ∧ t.untimed = { task with
      status := { state := o.state, message := o.remark }
      history := TaskStore.trim w.store.maxHistory (task.history ++ o.turns)
      artifacts := collect o.artifacts task.artifacts } := by
  intro o
  obtain ⟨-, -, hout⟩ := hp.outcome he
  obtain ⟨hending, hall⟩ := hout.resolve_right fun h => hquiet h.2
  obtain ⟨-, hfolded, -⟩ := hp.emptied he hlost
  have hmeans := Plan.means_wrapped htrigger Task.nextArtifactIndex_lt
  refine ⟨hending.trans (hmeans.ending.trans Meaning.ending_ofTask), ?_⟩
  obtain ⟨⟨t, token⟩, hent, -, hf⟩ := hp.stored
  have hupdates : folded.map Update.untimed = (Meaning.ofTask task trigger).wrapped.updates := by
    rw [← hfolded, hall, hmeans.updates]
  refine ⟨t, token, hent, ?_⟩
  calc
    t.untimed = task.folding w.store.maxHistory folded := hf.resolve_right fun h => hquiet h.2
    _ = task.folding w.store.maxHistory (folded.map Update.untimed) := Task.folding_untimed.symm
    _ = _ := hupdates ▸ Task.folding_upshot hlength

section Run

variable {g₀ g : Gateway} {ms before between : List Moment} {ds : List Deed} {b m : Moment}
  {p q : ProcessId} {i i₀ : Invocation} {e : Ending} {request : RequestId} {n : Option Nat}
  {peer : Subscriber} {params : TaskSendParams} {task : Task}

theorem Run.maxHistory (hn : g₀.Numbered) (hr : Run g₀ ms g) :
    g.store.maxHistory = g₀.store.maxHistory := by
  induction hr with
  | nil => rfl
  | snoc hrun hstep ih =>
      obtain ⟨-, d, hw, -⟩ := simulated_perform (hrun.numbered hn) hstep
      exact hw.maxHistory.trans ih

theorem Run.one_le_maxHistory (h₀ : g₀.IsNew) (hr : Run g₀ ms g) : 1 ≤ g.store.maxHistory :=
  hr.maxHistory h₀.numbered ▸ h₀.one_le_maxHistory

theorem History.task_of_accepts {method : Method} (h : History ms ds b.before)
    (hone : 1 ≤ b.before.store.maxHistory) (ha : b.Accepts method q peer params task) :
    let store := b.before.store
    task.id = params.id ∧
      task.history = TaskStore.trim store.maxHistory
        (store.historyOf params.id ++ [params.message]) ∧
      task.artifacts = store.artifactsOf params.id := by
  obtain ⟨-, id, msg, -, ha⟩ := ha
  obtain ⟨session, sent, -, -, hsend⟩ := ha.taken
  exact ⟨h.path.sound.id_of_send hsend, TaskStore.history_of_send hone hsend⟩

theorem Run.replies (h₀ : g₀.IsNew) (hr : Run g₀ (before ++ b :: between ++ [m]) g)
    (hb : b.Starts p i₀ task)
    (h₁ : (b.after.process? p).bind Process.handling? = some (.running i₀ request n))
    (hc : m.Concludes p i e) (htok : i.token = i₀.token) :
    (g.process? p).bind Process.handling? = some
      (.done (some ((m.before.concludeTask i e).replyTo request i.taskId n e))) := by
  obtain ⟨hrun, hstep, hrest⟩ := hr.split rfl
  obtain rfl : m.after = g := (hrest.eq_of_nil rfl).symm
  obtain ⟨hrun₀, hstep₀, hrest₀⟩ := hrun.split rfl
  have hrun₁ := hrun₀.snoc hstep₀
  obtain ⟨ds, hh⟩ := hrun₁.history h₀
  have hrunning := hrest₀.handles (hrun₁.numbered h₀.numbered) (hh.token_lt hb.begun) h₁ hc.2.1 htok
  rw [hc.1] at hstep
  exact handling_concluded hstep hrunning hc.2.2

/-- What comes of a request that sends a message to a task, whose invocation nothing stops. -/
theorem fulfilled (h₀ : g₀.IsNew) (hr : Run g₀ (before ++ b :: between ++ [m]) g)
    (ha : b.Accepts .tasksSend q peer params task) (hc : m.Concludes p i e)
    (hk : i.token = b.before.nextToken) (hquiet : i.token ∉ m.before.signalled) :
    let o := Upshot.ofTask task params.message
    let store := b.before.store
    ∃ t, g.store.find? params.id = some ⟨t, none⟩ ∧
      t.untimed = { task with
        status := { state := o.state, message := o.remark }
        history := TaskStore.trim store.maxHistory
          (store.historyOf params.id ++ params.message :: o.turns)
        artifacts := collect o.artifacts (store.artifactsOf params.id) } ∧
      ((Command.ofMessage params.message).length ≤ Nat.pow 2 32 →
        t.artifacts = store.artifactsOf params.id ++ o.artifacts) ∧
      (g.process? q).bind Process.handling? = some (.done (some (match o.error? with
        | none => .success peer.request (t.withHistoryLength params.historyLength).encode
        | some error => .failure (some peer.request) error))) := by
  intro o store
  obtain ⟨hrun, hstep, hrest⟩ := hr.split rfl
  obtain rfl : m.after = g := (hrest.eq_of_nil rfl).symm
  obtain ⟨hrun₀, hstep₀, -⟩ := hrun.split rfl
  obtain ⟨ds₀, hh₀⟩ := hrun₀.history h₀
  obtain ⟨i₀, hstarts, -, hproc⟩ := hh₀.start_send hstep₀ ha
  have htok : i.token = i₀.token := hk.trans hstarts.token.symm
  obtain ⟨rfl, -, ds, folded, hh, hp⟩ := hrun.stems h₀ hstarts hc.2.1 htok
  have hone : 1 ≤ store.maxHistory := hrun₀.one_le_maxHistory h₀
  have hmax : m.before.workshop.store.maxHistory = store.maxHistory :=
    (hrun.maxHistory h₀.numbered).trans (hrun₀.maxHistory h₀.numbered).symm
  -- what it begins with
  obtain ⟨hid, hhistory, hartifacts⟩ := hh₀.task_of_accepts hone ha
  have htrigger : task.history.getLast? = some params.message :=
    hhistory ▸ TaskStore.getLast?_trim hone
  have hlength : task.history.length ≤ m.before.workshop.store.maxHistory := by
    rw [hmax, hhistory]
    exact TaskStore.length_trim
  -- what it leaves
  have hlost : .lost p i.token ∉ ds := fun hl => hquiet (hh.path.signalled_of_lost hl)
  obtain ⟨rfl, t, token, hent, ht⟩ := hp.fulfils hc.2.2 hlost hquiet htrigger hlength
  rw [hmax, hartifacts] at ht
  have hent : m.before.store.find? i.taskId = some ⟨t, token⟩ := hent
  have hstate : t.state = o.state := congrArg Task.state ht
  have hcollect : t.artifacts = collect o.artifacts (store.artifactsOf params.id) :=
    congrArg Task.artifacts ht
  have hstored := find?_concluded hent hstate
  have hkey : i.taskId = params.id := hp.task.trans hid
  refine ⟨t, ?_, ?_, fun hroom => ?_, ?_⟩
  · obtain ⟨y, hafter, -⟩ := concluded hstep hc
    rw [hafter, ← hkey]
    exact hstored
  · rw [ht, hhistory, TaskStore.trim_trim_append, List.append_assoc, List.singleton_append]
  · have hbare : store.artifactsOf params.id = [] := hartifacts.symm.trans hp.bare
    have hindex : task.nextArtifactIndex = 0 := by
      rw [Task.nextArtifactIndex, hp.bare]
      rfl
    rw [hcollect, hbare]
    refine collect_fresh (Upshot.nodup_ofCommands ?_)
    rw [hindex, Nat.zero_add]
    exact hroom
  · rw [hr.replies h₀ hstarts hproc hc htok, replyTo_eq hstored]

end Run

namespace Act

open Json (Value)

def sending (request : RequestId) (text : String) : Act :=
  let part : Value := .ofFields [("type", .string "text"), ("text", .string text)]
  let message : Value := .ofFields [("role", .string "user"), ("parts", .array [part])]
  let params : Value := .ofFields [("id", .string "t"), ("message", message)]
  .submit "a" (.request request "tasks/send" (some params))

end Act

/-- That a request was let in at a moment, that nothing has stopped its invocation, and that a
gateway can close it now and then has such an entry for its task. -/
def Moment.isReady (P : Moment → TaskSendParams → TaskEntry → Bool) (g : Gateway) (b : Moment) :
    Bool :=
  b.admits .tasksSend fun q _ params => (g.invocation? q).any fun i =>
    i.token = b.before.nextToken ∧ i.token ∉ g.signalled ∧ i.ending?.isSome ∧
      (g.perform (.control q)).any fun g => (g.store.find? params.id).any (P b params)

theorem Run.exists_of_sending (acts : List Act) (g₀ : Gateway)
    (P : Moment → TaskSendParams → TaskEntry → Bool)
    (h : (g₀.replay acts).any (fun (ms, g) => ms.any (Moment.isReady P g)) = true) :
    ∃ (before between : List Moment) (b m : Moment) (g : Gateway) (q : ProcessId)
        (peer : Subscriber) (params : TaskSendParams) (task : Task) (i : Invocation) (e : Ending)
        (entry : TaskEntry),
      Run g₀ (before ++ b :: between ++ [m]) g ∧ b.Accepts .tasksSend q peer params task ∧
      m.Concludes q i e ∧ i.token = b.before.nextToken ∧ i.token ∉ m.before.signalled ∧
      g.store.find? params.id = some entry ∧ P b params entry = true := by
  obtain ⟨ms, g, hr, -, h⟩ := Run.exists_of_replay acts g₀
    (fun ms g => ms.any (Moment.isReady P g)) h
  obtain ⟨b, hb, h⟩ := List.any_eq_true.mp h
  obtain ⟨q, peer, params, task, ha, h⟩ := Moment.exists_of_admits h
  simp only [Option.any_eq_true, decide_eq_true_eq] at h
  obtain ⟨i, hi, htok, hquiet, he, g', hstep, entry, hent, hP⟩ := h
  obtain ⟨e, he⟩ := Option.isSome_iff_exists.mp he
  obtain ⟨before, between, rfl⟩ := List.append_of_mem hb
  exact ⟨before, between, b, ⟨g, .control q, g'⟩, g', q, peer, params, task, i, e, entry,
    hr.snoc hstep, ha, ⟨rfl, hi, he⟩, htok, hquiet, hent, hP⟩

theorem fulfilled_resumed : ∃ (before between : List Moment) (b m : Moment) (g : Gateway)
    (q : ProcessId) (peer : Subscriber) (params : TaskSendParams) (task : Task) (i : Invocation)
    (e : Ending),
    Run (Gateway.new { maxTaskHistory := 2 } []) (before ++ b :: between ++ [m]) g ∧
    b.Accepts .tasksSend q peer params task ∧ m.Concludes q i e ∧
    i.token = b.before.nextToken ∧ i.token ∉ m.before.signalled ∧
    (b.before.store.historyOf params.id).length = 2 ∧
    Command.ofMessage params.message = [.stream 3] ∧ ∃ t : Task,
      g.store.find? params.id = some ⟨t, none⟩ ∧
      t.artifacts = b.before.store.artifactsOf params.id ++
        (Upshot.ofTask task params.message).artifacts := by
  obtain ⟨before, between, b, m, g, q, peer, params, task, i, e, -, hr, ha, hc, hk, hquiet, -,
      hP⟩ := Run.exists_of_sending
      [[.openSession ["a"] "owner" .server {}, .sending (.number 1) "ask(\"more?\")", .control 0],
        List.replicate 6 (.produce 0), List.replicate 3 (.consume 0),
        [.control 0, .sending (.number 2) "stream(3)", .control 1],
        List.replicate 8 (.produce 1), [.tick (Nanos.ofMillis 100)],
        List.replicate 5 (.produce 1), [.tick (Nanos.ofMillis 100)],
        List.replicate 7 (.produce 1), List.replicate 6 (.consume 1)].flatten
      (Gateway.new { maxTaskHistory := 2 } [])
      (fun b params _ => (b.before.store.historyOf params.id).length = 2 ∧
        Command.ofMessage params.message = [.stream 3])
      (by decide +kernel)
  obtain ⟨hlength, hcs⟩ := of_decide_eq_true hP
  obtain ⟨t, hstored, -, hartifacts, -⟩ := fulfilled ⟨{ maxTaskHistory := 2 }, [], 0, rfl⟩
    hr ha hc hk hquiet
  exact ⟨before, between, b, m, g, q, peer, params, task, i, e, hr, ha, hc, hk, hquiet, hlength,
    hcs, t, hstored, hartifacts (by rw [hcs]; decide)⟩

theorem refused_unsaid : ∃ (before between : List Moment) (b m : Moment) (g : Gateway)
    (q : ProcessId) (peer : Subscriber) (params : TaskSendParams) (task t : Task) (i : Invocation)
    (e : Ending) (remark : TaskMessage),
    Run (Gateway.new {} []) (before ++ b :: between ++ [m]) g ∧
    b.Accepts .tasksSend q peer params task ∧ m.Concludes q i e ∧
    i.token = b.before.nextToken ∧ i.token ∉ m.before.signalled ∧
    g.store.find? params.id = some ⟨t, none⟩ ∧ t.state = .failed ∧
    t.status.message = some remark ∧
    t.history ≠ TaskStore.trim b.before.store.maxHistory
      (b.before.store.historyOf params.id ++ [params.message, remark]) := by
  obtain ⟨before, between, b, m, g, q, peer, params, task, i, e, ⟨t, token⟩, hr, ha, hc, hk, hquiet,
      hent, hP⟩ := Run.exists_of_sending
    [[.openSession ["a"] "owner" .server {}, .sending (.number 1) "error(-32050)", .control 0],
      List.replicate 6 (.produce 0), List.replicate 3 (.consume 0)].flatten
    (Gateway.new {} [])
    (fun b params entry => entry.token = none ∧ entry.task.state = .failed ∧
      entry.task.status.message.any fun remark => entry.task.history ≠
        TaskStore.trim b.before.store.maxHistory
          (b.before.store.historyOf params.id ++ [params.message, remark]))
    (by decide +kernel)
  obtain ⟨rfl, hstate, hremark⟩ := of_decide_eq_true hP
  simp only [Option.any_eq_true, decide_eq_true_eq] at hremark
  obtain ⟨remark, hremark, hhistory⟩ := hremark
  exact ⟨before, between, b, m, g, q, peer, params, task, t, i, e, remark, hr, ha, hc, hk, hquiet,
    hent, hstate, hremark, hhistory⟩

end AgentGateway
