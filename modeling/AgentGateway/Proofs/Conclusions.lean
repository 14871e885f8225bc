import AgentGateway.Proofs.History

namespace AgentGateway

open Gateway

namespace Moment

def Concludes (p : ProcessId) (i : Invocation) (e : Ending) (m : Moment) : Prop :=
  m.act = .control p ∧ m.before.invocation? p = some i ∧ i.ending? = some e

/-- That an invocation which should have asked for input is closed with the question unread. -/
def Strands (id : String) (m : Moment) : Prop :=
  ∃ p i entry, m.Concludes p i (.reached .inputRequired) ∧ i.taskId = id ∧ i.queue ≠ [] ∧
    m.before.store.find? id = some entry ∧ entry.task.state.isTerminal = false

end Moment

namespace TaskStore

variable {e : Ending} {timestamp : String} {t : Task}

theorem artifacts_conclude : (conclude e timestamp t).artifacts = t.artifacts := by
  unfold conclude
  split
  · rfl
  · split <;> rfl

theorem state_conclude (h : t.state = e.state) : (conclude e timestamp t).state = e.state := by
  unfold conclude
  split
  · exact h
  · split
    · rfl
    · exact h
    · rfl
    · rfl
    · rename_i f hc ha
      cases f with
      | cancelled => exact (hc rfl).elim
      | abandoned => exact (ha rfl).elim
      | rpc | internal => rfl

end TaskStore

section Run

variable {g₀ g g' : Gateway} {ms before : List Moment} {ds : List Deed} {m : Moment} {a : Act}
  {p : ProcessId} {i : Invocation} {e : Ending} {task t₀ : Task} {id : String}
  {folded : List Update}

theorem Gateway.concluded (hstep : g.perform a = some g')
    (hc : Moment.Concludes p i e ⟨g, a, g'⟩) :
    ∃ y, g' = (g.concludeTask i e).setProcess p y ∧ y.invocation? = none := by
  obtain ⟨ha, hi, he⟩ := hc
  obtain rfl : a = .control p := ha
  obtain ⟨x, y, g₁, hx, hw, rfl⟩ := worked_control? hstep
  have hxi : x.invocation? = some i := by rw [← invocation?_eq hx, hi]
  cases hw with
  | calm hnone | called hnone | handled hnone => simp [hnone] at hxi
  | concluded hxi' he' hnone =>
      cases hxi.symm.trans hxi'
      cases he.symm.trans he'
      exact ⟨y, rfl, hnone⟩

theorem History.concludes (h : History ms ds g) (hstep : g.perform a = some g')
    (hc : Moment.Concludes p i e ⟨g, a, g'⟩) : ∃ t₀ folded entry timestamp,
      Workshop.Progress ds g.workshop p i.plain t₀ folded ∧
      g.store.find? i.taskId = some entry ∧
      (Folded t₀ folded entry.task ∨
        entry.task.state = .canceled ∧ i.token ∈ g.signalled) ∧
      g'.store.find? i.taskId = some (entry.finish e timestamp) := by
  obtain ⟨t₀, folded, hp⟩ := h.path.kept.progress p i.plain (work_eq hc.2.1)
  obtain ⟨entry, hent, -, hf⟩ := hp.stored
  obtain ⟨y, rfl, -⟩ := concluded hstep hc
  refine ⟨t₀, folded, entry, g.timestamp, hp, hent, hf.imp_left .of_untimed, ?_⟩
  have hfind : g.store.find? i.taskId = some entry := hent
  change (g.store.finish i.taskId e g.timestamp).2.find? i.taskId = _
  rw [TaskStore.find?_finish, if_pos rfl, hfind]
  rfl

/-- An invocation that leaves its task completed has lost a chunk exactly where one waits in its
queue when it is closed, or where two artifacts have begun at one index. -/
theorem completed_keeps_iff (h₀ : g₀.IsNew) (hr : Run g₀ (before ++ [m]) g)
    (hc : m.Concludes p i e) (hs : m.after.store.find? i.taskId = some ⟨task, none⟩)
    (hstate : task.state = .completed) : ∃ b ∈ before, ∃ t₀, b.Begins i.token t₀ ∧
      t₀.id = i.taskId ∧
      (Keeps t₀.artifacts (chunksOf (before.flatMap (Moment.emitted i.token))) task.artifacts ↔
        chunksOf i.queue = [] ∧
          (begun (chunksOf (before.flatMap (Moment.emitted i.token)))).Nodup) := by
  obtain ⟨hrun, hstep, -⟩ := hr.split rfl
  obtain ⟨ds, hh⟩ := hrun.history h₀
  obtain ⟨t₀, folded, entry, timestamp, hp, hent, hf, hafter⟩ := hh.concludes hstep hc
  obtain ⟨subscriber, hbegan⟩ := hp.begun
  obtain ⟨b, hb, hbegins⟩ := hh.begun p subscriber i.token t₀ hbegan
  refine ⟨b, hb, t₀, hbegins, hp.task.symm, ?_⟩
  obtain rfl : _ = task := congrArg TaskEntry.task (Option.some.inj (hafter.symm.trans hs))
  have hfold : Folded t₀ folded entry.task := by
    refine hf.resolve_right ?_
    rintro ⟨hcancel, -⟩
    have hterm : entry.task.state.isTerminal = true := by rw [hcancel]; rfl
    rw [TaskEntry.finish, TaskStore.conclude_of_terminal hterm, hcancel] at hstate
    cases hstate
  have hchunks : chunksOf (emittedIn ds i.token) = chunksOf folded ++ chunksOf i.queue := by
    have hkept : emittedIn ds i.token = folded ++ i.queue := hp.kept
    rw [hkept, chunksOf_append]
  have horder : Orderly (chunksOf folded ++ chunksOf i.queue) := by
    obtain ⟨first, middle, last, hscript⟩ := hp.script
    exact hchunks ▸ hscript.chunks_orderly hp.follows.isPrefix
  rw [hh.emitted, hchunks, TaskEntry.finish, TaskStore.artifacts_conclude, hfold.artifacts, hp.bare]
  exact keeps_collect_iff horder

end Run

namespace Act

open Json (Value)

def subscribing (text : String) : List Act :=
  let part : Value := .ofFields [("type", .string "text"), ("text", .string text)]
  let message : Value := .ofFields [("role", .string "user"), ("parts", .array [part])]
  let params : Value := .ofFields [("id", .string "t"), ("message", message)]
  [.openSession ["a"] "owner" .server {},
    .submit "a" (.request (.number 1) "tasks/sendSubscribe" (some params)), .control 0]

/-- What loses the subscriber before its producer has taken so many steps. -/
def deserting (text : String) (steps : Nat) : List Act :=
  subscribing text ++ .dropReceiver 0 ::
    (List.replicate steps (.produce 1) ++ List.replicate 2 (.consume 1))

end Act

theorem completed_loses : ∃ g before m g' p i e task, Run g (before ++ [m]) g' ∧
    m.Concludes p i e ∧ m.after.store.find? i.taskId = some ⟨task, none⟩ ∧
    task.state = .completed ∧ ∃ t₀ : Task, ¬ Keeps t₀.artifacts
      (chunksOf (before.flatMap (Moment.emitted i.token))) task.artifacts := by
  obtain ⟨before, g, hr, -, h⟩ := Run.exists_of_replay (Act.deserting "respond(text, \"hi\")" 9)
    (Gateway.new {} [])
    (fun _ g => (g.invocation? 1).any fun i =>
      i.ending? = some (.reached .completed) ∧ chunksOf i.queue ≠ [] ∧
      (g.perform (.control 1)).any fun g => (g.store.find? i.taskId).any fun entry =>
        entry.token = none ∧ entry.task.state = .completed) (by decide +kernel)
  simp only [Option.any_eq_true, decide_eq_true_eq] at h
  obtain ⟨i, hi, he, hq, g', hstep, ⟨task, token⟩, hs, htok, hstate⟩ := h
  obtain rfl : token = none := htok
  have hc : Moment.Concludes 1 i (.reached .completed) ⟨g, .control 1, g'⟩ := ⟨rfl, hi, he⟩
  have hr := hr.snoc hstep
  obtain ⟨-, -, t₀, -, -, hkeeps⟩ := completed_keeps_iff ⟨{}, [], 0, rfl⟩ hr hc hs hstate
  exact ⟨_, _, _, _, _, _, _, task, hr, hc, hs, hstate, t₀, fun hk => hq (hkeeps.mp hk).1⟩

namespace Workshop

variable {w w' : Workshop} {ds : List Deed} {d : Deed} {p : ProcessId} {i : Invocation}
  {e : Ending} {task t₀ : Task} {id : String} {folded : List Update}

theorem Step.tokenless (h : Step w d w') (hs : w.Sound)
    (hent : w'.store.find? id = some ⟨task, none⟩) :
    w.store.find? id = some ⟨task, none⟩ ∨ task.state = .canceled ∨
      ∃ p i e entry timestamp, d = .concluded p ∧ w.work p = some i ∧ i.ending? = some e ∧
        i.taskId = id ∧ w.store.find? id = some entry ∧
        (entry.finish e timestamp).task = task := by
  have hleaves := h.leaves id
  rw [hent] at hleaves
  generalize hstored : some (⟨task, none⟩ : TaskEntry) = o at hleaves
  cases hleaves with
  | kept => exact .inl rfl
  | created | resumed => cases hstored
  | @folded p i u rest timestamp hi hid hq =>
      -- the entry of a task that is worked on has a token
      obtain ⟨entry, hentry, hfold⟩ := Option.map_eq_some_iff.mp hstored.symm
      have hslot := hs.work_slot p i hi
      rw [slot, hid, hentry] at hslot
      have htok : entry.token = none := by
        rw [← TaskEntry.token_fold, hfold]
      cases htok.symm.trans hslot
  | @finished p i e timestamp hi hid he =>
      obtain ⟨entry, hentry, hfin⟩ := Option.map_eq_some_iff.mp hstored.symm
      exact .inr (.inr ⟨p, i, e, entry, timestamp, rfl, hi, he, hid, hentry,
        congrArg TaskEntry.task hfin⟩)
  | cancelled he hopen => exact .inr (.inl (congrArg (·.task.state) (Option.some.inj hstored)))

theorem Progress.working (hp : Progress ds w p i t₀ folded) (he : i.ending? = some e)
    (hq : i.queue ≠ []) (hf : Folded t₀ folded task) : task.state = .working := by
  obtain ⟨hstop, -⟩ := hp.outcome he
  have hne : folded ≠ [] := by
    have hcons := hp.consumed
    simp only [Invocation.Consumed, hstop] at hcons
    rcases hcons with ⟨-, hne⟩ | ⟨hnil, -⟩
    · exact hne
    · exact (hq hnil).elim
  rw [hf.state, hp.state_waiting hq, if_neg hne]

theorem Progress.ended (hp : Progress ds w p i t₀ folded) (he : i.ending? = some e)
    (hne : e ≠ .failed .cancelled) (hq : i.queue = []) (hf : Folded t₀ folded task) :
    task.state = e.state := by
  obtain ⟨-, -, ⟨hplan, hall⟩ | ⟨hcan, -⟩⟩ := hp.outcome he
  · obtain ⟨first, middle, last, hs⟩ := hp.script
    have hkept := hp.kept
    rw [hq, List.append_nil] at hkept
    rw [hf.state, hs.state_after (hkept ▸ hall), hplan]
  · exact (hne hcan).elim

theorem Progress.finished (hp : Progress ds w p i t₀ folded) (he : i.ending? = some e)
    (hlost : .lost p i.token ∉ ds) {entry : TaskEntry} {timestamp : String}
    (hent : w.store.find? i.taskId = some entry) :
    (entry.finish e timestamp).task.state =
      if i.token ∈ w.signalled then .canceled else e.state := by
  split
  · rename_i hsig
    obtain ⟨entry', hent', hcancel⟩ := (hp.marked hsig).resolve_left hlost
    cases hent.symm.trans hent'
    rw [TaskEntry.finish, TaskStore.conclude_of_terminal (by rw [hcancel]; rfl), hcancel]
  · rename_i hsig
    obtain ⟨entry', hent', -, hf⟩ := hp.stored
    cases hent.symm.trans hent'
    have hfold := Folded.of_untimed (hf.resolve_right fun h => hsig h.2)
    obtain ⟨hq, -⟩ := hp.emptied he hlost
    obtain ⟨-, hended, -⟩ := hp.outcome he
    have hne : e ≠ .failed .cancelled := by
      rintro rfl
      exact hsig (hp.stopped hended)
    exact TaskStore.state_conclude (hp.ended he hne hq hfold)

end Workshop

section Run

variable {g₀ g : Gateway} {ms : List Moment} {task : Task} {id : String}

theorem Run.strands (h₀ : g₀.IsNew) (hr : Run g₀ ms g)
    (hs : g.store.find? id = some ⟨task, none⟩) (hopen : task.state.isFinal = false) :
    ∃ m ∈ ms, m.Strands id ∧ m.after.store.find? id = some ⟨task, none⟩ := by
  have hterm : task.state.isTerminal = false := by
    simp only [TaskState.isFinal, Bool.or_eq_false_iff] at hopen
    exact hopen.1
  induction hr with
  | nil =>
      have hnew := h₀.workshop.entries
      have hs : g₀.workshop.store.find? id = some ⟨task, none⟩ := hs
      simp [TaskStore.find?, hnew] at hs
  | @snoc ms g a g' hrun hstep ih =>
      obtain ⟨ds, hh⟩ := hrun.history h₀
      obtain ⟨-, d, hw, hd⟩ := simulated_perform hh.numbered hstep
      rcases hw.tokenless hh.path.sound hs with
        hold | hcancel | ⟨p, i, e, entry, timestamp, hcon, hi, he, hid, hent, rfl⟩
      · obtain ⟨m, hm, hstrands, hafter⟩ := ih hold
        exact ⟨m, by simp [hm], hstrands, hafter⟩
      · simp [hcancel, TaskState.isTerminal] at hterm
      · refine ⟨⟨g, a, g'⟩, by simp, ?_, hs⟩
        obtain ⟨t₀, folded, hp⟩ := hh.path.kept.progress p i hi
        obtain ⟨hask, hsame, hfold⟩ := hp.asking_of_waiting he (hid ▸ hent) hterm
        rw [hsame] at hopen hterm
        obtain ⟨j, hj, rfl⟩ := exists_of_work hi
        refine ⟨p, j, entry, ⟨hd.concluded p hcon, hj, hask ▸ he⟩, hid, fun hq => ?_, hent, hterm⟩
        have hstate := hp.ended he (by simp [hask]) hq hfold
        simp [hstate, hask, Ending.state, TaskState.isFinal] at hopen

/-- A task without an invocation is in no final state exactly if an invocation that should have
asked for input has been closed with the question unread, and has left it so. -/
theorem unsettled_iff (h₀ : g₀.IsNew) (hr : Run g₀ ms g)
    (hs : g.store.find? id = some ⟨task, none⟩) :
    task.state.isFinal = false ↔
      ∃ m ∈ ms, m.Strands id ∧ m.after.store.find? id = some ⟨task, none⟩ := by
  refine ⟨hr.strands h₀ hs, ?_⟩
  rintro ⟨m, hm, ⟨p, i, entry, hc, rfl, hq, hent, hterm⟩, hafter⟩
  obtain ⟨before, after, hms⟩ := List.append_of_mem hm
  obtain ⟨hrun, hstep, -⟩ := hr.split hms
  obtain ⟨ds, hh⟩ := hrun.history h₀
  obtain ⟨t₀, folded, entry', timestamp, hp, hent', hf, hfin⟩ := hh.concludes hstep hc
  cases hent.symm.trans hent'
  obtain rfl : _ = task := congrArg TaskEntry.task (Option.some.inj (hfin.symm.trans hafter))
  have hfold : Folded t₀ folded entry.task := by
    refine hf.resolve_right ?_
    rintro ⟨hcancel, -⟩
    rw [hcancel] at hterm
    cases hterm
  have hstate := hp.working hc.2.2 hq hfold
  have hsame : (entry.finish (.reached .inputRequired) timestamp).task = entry.task := by
    simp [TaskEntry.finish, TaskStore.conclude]
  rw [hsame, hstate]
  rfl

end Run

theorem unsettled_question : ∃ g ms g' task, Run g ms g' ∧
    g'.store.find? "t" = some ⟨task, none⟩ ∧ task.state = .working ∧ ∃ m ∈ ms, m.Strands "t" := by
  obtain ⟨ms, g, hr, -, h⟩ := Run.exists_of_replay
    (Act.deserting "ask(\"more?\")" 6 ++ [.control 1]) (Gateway.new {} [])
    (fun _ g => (g.store.find? "t").any fun entry =>
      entry.token = none ∧ entry.task.state = .working) (by decide +kernel)
  simp only [Option.any_eq_true, decide_eq_true_eq] at h
  obtain ⟨⟨task, token⟩, hs, htok, hstate⟩ := h
  obtain rfl : token = none := htok
  have hstate : task.state = .working := hstate
  have hopen : task.state.isFinal = false := by rw [hstate]; rfl
  obtain ⟨m, hm, hstrands, -⟩ := (unsettled_iff ⟨{}, [], 0, rfl⟩ hr hs).mp hopen
  exact ⟨_, ms, g, task, hr, hs, hstate, m, hm, hstrands⟩

end AgentGateway
