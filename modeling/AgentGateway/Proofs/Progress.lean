import AgentGateway.Proofs.Tokens
import AgentGateway.Proofs.Verdict
/-!
How far each invocation has come: what its producer has emitted has been folded into the store or
waits in its queue, and what has been folded has been sent to the subscriber.
-/

namespace AgentGateway

namespace Task

def untimed (t : Task) : Task := { t with status := { t.status with timestamp := none } }

def folding (max : Nat) (us : List Update) (t : Task) : Task :=
  us.foldl (fun t u => (TaskStore.fold max "" u t).untimed) t.untimed

variable {max : Nat} {timestamp : String} {u : Update} {us vs : List Update} {t : Task}

theorem state_fold : (TaskStore.fold max timestamp u t).state = u.state?.getD t.state := by
  cases u with
  | status e =>
      simp only [TaskStore.fold, TaskStore.withStatus]
      split
      · split <;> rfl
      · rfl
  | artifact e => rfl
  | error e => rfl

theorem artifacts_fold : (TaskStore.fold max timestamp u t).artifacts =
    collect (chunksOf [u]) t.artifacts := by
  cases u with
  | status e =>
      simp only [TaskStore.fold, TaskStore.withStatus]
      split
      · split <;> rfl
      · rfl
  | artifact e => rfl
  | error e => rfl

theorem untimed_fold : (TaskStore.fold max timestamp u t).untimed =
    (TaskStore.fold max "" u t.untimed).untimed := by
  cases u with
  | status e =>
      simp only [TaskStore.fold, TaskStore.withStatus]
      split
      · split <;> rfl
      · rfl
  | artifact e => rfl
  | error e => rfl

theorem folding_append : t.folding max (us ++ vs) = vs.foldl
    (fun t u => (TaskStore.fold max "" u t).untimed) (t.folding max us) := List.foldl_append

theorem folding_snoc {t' : Task} (h : t'.untimed = t.folding max us) :
    (TaskStore.fold max timestamp u t').untimed = t.folding max (us ++ [u]) := by
  rw [untimed_fold, h, folding_append]
  rfl

theorem state_folding : (t.folding max us).state = stateAfter us t.state := by
  induction us using List.reverseRecOn with
  | nil => rfl
  | append_singleton us u ih =>
      have hafter : stateAfter (us ++ [u]) t.state = u.state?.getD (stateAfter us t.state) := by
        rw [stateAfter, List.foldl_append]
        rfl
      rw [folding_append, hafter, ← ih]
      exact state_fold

theorem artifacts_folding :
    (t.folding max us).artifacts = collect (chunksOf us) t.artifacts := by
  induction us using List.reverseRecOn with
  | nil => rfl
  | append_singleton us u ih =>
      rw [folding_append, chunksOf_append, collect_append, ← ih]
      exact artifacts_fold

end Task

structure Folded (t₀ : Task) (us : List Update) (t : Task) : Prop where
  state : t.state = stateAfter us t₀.state
  artifacts : t.artifacts = collect (chunksOf us) t₀.artifacts

theorem Folded.of_untimed {t₀ t : Task} {us : List Update} {max : Nat}
    (h : t.untimed = t₀.folding max us) : Folded t₀ us t :=
  ⟨(congrArg Task.state h).trans Task.state_folding,
    (congrArg Task.artifacts h).trans Task.artifacts_folding⟩

def emittedIn (ds : List Deed) (k : Token) : List Update := ds.flatMap (Deed.emissions k)

def toldIn (ds : List Deed) (p : ProcessId) : List Message := ds.flatMap (Deed.messages p)

theorem emittedIn_snoc {ds : List Deed} {d : Deed} {k : Token} :
    emittedIn (ds ++ [d]) k = emittedIn ds k ++ d.emissions k := by
  simp [emittedIn]

theorem toldIn_snoc {ds : List Deed} {d : Deed} {p : ProcessId} :
    toldIn (ds ++ [d]) p = toldIn ds p ++ d.messages p := by
  simp [toldIn]

namespace Invocation

def Told (i : Invocation) (messages : List Message) (us : List Update) : Prop :=
  ∀ s, i.subscriber = some s → messages = us.map (Update.toMessage s.request)

def Consumed (i : Invocation) (lost : Prop) (messages : List Message) (folded : List Update) :
    Prop :=
  match i.consumer with
  | .receiving => i.Told messages folded
  | .forwarding d => ∃ before u, folded = before ++ [u] ∧ i.Told messages before ∧
      ∀ s, i.subscriber = some s → d.message = u.toMessage s.request
  | .stopped => (lost ∧ folded ≠ []) ∨
      (i.queue = [] ∧ i.producer.ending?.isSome ∧ i.Told messages folded)

theorem Consumed.mono {i : Invocation} {lost lost' : Prop} {messages : List Message}
    {folded : List Update} (h : i.Consumed lost messages folded) (hl : lost → lost') :
    i.Consumed lost' messages folded := by
  unfold Consumed at h ⊢
  split at h
  · exact h
  · exact h
  · exact h.imp_left fun h => ⟨hl h.1, h.2⟩

theorem Told.onward {i : Invocation} {lost : Prop} {messages : List Message}
    {folded rest : List Update} {u : Update} (h : i.Told messages folded) :
    Consumed { i with queue := rest, consumer := i.onward u } lost messages (folded ++ [u]) := by
  rcases Option.eq_none_or_eq_some i.subscriber with hsub | ⟨s, hsub⟩
  · have hon : i.onward u = .receiving := by simp [Invocation.onward, hsub]
    rw [hon]
    refine fun s hs => ?_
    have hs : i.subscriber = some s := hs
    simp [hsub] at hs
  · have hon : i.onward u = .forwarding (.fresh (u.toMessage s.request)) := by
      simp [Invocation.onward, hsub]
    rw [hon]
    refine ⟨folded, u, rfl, h, fun s' hs' => ?_⟩
    have hs' : i.subscriber = some s' := hs'
    cases hsub.symm.trans hs'
    rfl

end Invocation

namespace Workshop

variable {w w' : Workshop} {ds : List Deed} {d : Deed} {p : ProcessId} {i : Invocation}

/-- How far an invocation of a task has come, with the updates that have been folded. -/
structure Progress (ds : List Deed) (w : Workshop) (p : ProcessId) (i : Invocation) (t₀ : Task)
    (folded : List Update) : Prop where
  begun : ∃ subscriber, .began p subscriber i.token t₀ ∈ ds
  task : i.taskId = t₀.id
  bare : t₀.artifacts = []
  active : t₀.state.isTerminal = false
  kept : emittedIn ds i.token = folded ++ i.queue
  follows : i.producer.Tracks t₀.id (Plan.ofTask t₀) (emittedIn ds i.token)
    (decide (i.token ∈ w.signalled)) true
  consumed : i.Consumed (.lost p i.token ∈ ds) (toldIn ds p) folded
  stored : ∃ e, w.store.find? i.taskId = some e ∧ e.token = some i.token ∧
    (e.task.untimed = t₀.folding w.store.maxHistory folded ∨
      e.task.state = .canceled ∧ i.token ∈ w.signalled)
  marked : i.token ∈ w.signalled → .lost p i.token ∈ ds ∨
    ∃ e, w.store.find? i.taskId = some e ∧ e.task.state = .canceled

structure Kept (ds : List Deed) (w : Workshop) : Prop where
  fresh : ∀ k, w.nextToken ≤ k → emittedIn ds k = [] ∧ ∀ p, .lost p k ∉ ds
  bare : ∀ id e, w.store.find? id = some e → e.token = none → e.task.state.isTerminal = false →
    e.task.artifacts = []
  progress : ∀ p i, w.work p = some i → ∃ t₀ folded, Progress ds w p i t₀ folded

variable {t₀ : Task} {folded : List Update}

namespace Progress

theorem script (_ : Progress ds w p i t₀ folded) : ∃ first middle last,
    Script (Plan.ofTask t₀).ending ((Plan.ofTask t₀).updates t₀.id) first middle last :=
  script_ofTask t₀

theorem folded_prefix (h : Progress ds w p i t₀ folded) :
    folded.map Update.untimed <+: (Plan.ofTask t₀).updates t₀.id := by
  obtain ⟨rest, hrest⟩ := h.follows.isPrefix
  rw [h.kept, List.map_append, List.append_assoc] at hrest
  exact ⟨_, hrest⟩

theorem folded_ne (h : Progress ds w p i t₀ folded) (hq : i.queue ≠ []) :
    folded.map Update.untimed ≠ (Plan.ofTask t₀).updates t₀.id := by
  obtain ⟨rest, hrest⟩ := h.follows.isPrefix
  rw [h.kept, List.map_append, List.append_assoc] at hrest
  intro heq
  rw [← heq] at hrest
  have hnil := List.append_right_eq_self.mp hrest
  exact hq (by simpa using (List.append_eq_nil_iff.mp hnil).1)

theorem state_waiting (h : Progress ds w p i t₀ folded) (hq : i.queue ≠ []) :
    stateAfter folded t₀.state = if folded = [] then t₀.state else .working := by
  obtain ⟨first, middle, last, hs⟩ := h.script
  exact hs.state_before h.folded_prefix (h.folded_ne hq)

theorem begun_snoc (h : Progress ds w p i t₀ folded) :
    ∃ subscriber, .began p subscriber i.token t₀ ∈ ds ++ [d] := by
  obtain ⟨subscriber, hb⟩ := h.begun
  exact ⟨subscriber, by simp [hb]⟩

theorem marked_snoc (h : Progress ds w p i t₀ folded) (hs : i.token ∈ w.signalled) :
    .lost p i.token ∈ ds ++ [d] ∨
      ∃ e, w.store.find? i.taskId = some e ∧ e.task.state = .canceled :=
  (h.marked hs).imp_left fun hl => by simp [hl]

theorem emitted_eq (hE : d.emissions i.token = []) :
    emittedIn (ds ++ [d]) i.token = emittedIn ds i.token := by
  rw [emittedIn_snoc, hE, List.append_nil]

theorem told_eq (hT : d.messages p = []) : toldIn (ds ++ [d]) p = toldIn ds p := by
  rw [toldIn_snoc, hT, List.append_nil]

theorem kept_snoc (h : Progress ds w p i t₀ folded) (hE : d.emissions i.token = []) :
    emittedIn (ds ++ [d]) i.token = folded ++ i.queue := (emitted_eq hE).trans h.kept

theorem follows_snoc (h : Progress ds w p i t₀ folded) (hE : d.emissions i.token = [])
    (hsub : i.token ∈ w.signalled → i.token ∈ w'.signalled) :
    i.producer.Tracks t₀.id (Plan.ofTask t₀) (emittedIn (ds ++ [d]) i.token)
      (decide (i.token ∈ w'.signalled)) true := by
  rw [emitted_eq hE]
  exact h.follows.mono (by simpa using hsub) id

theorem stopped (h : Progress ds w p i t₀ folded)
    (he : i.producer.ending? = some (.failed .cancelled)) : i.token ∈ w.signalled := by
  obtain ⟨before, last, hcloses⟩ := Plan.closes_ofTask t₀
  rcases h.follows.of_ended he with ⟨hplan, -⟩ | ⟨f, rest, -, ⟨-, hc⟩ | ⟨-, hr⟩, -⟩
  · exact absurd hplan.symm hcloses.concludes.unstopped.1
  · simpa using hc
  · cases hr

theorem frame (h : Progress ds w p i t₀ folded) (hE : d.emissions i.token = [])
    (hT : d.messages p = []) (hsub : ∀ k ∈ w.signalled, k ∈ w'.signalled)
    (hsig : i.token ∈ w'.signalled → i.token ∈ w.signalled)
    (hmax : w'.store.maxHistory = w.store.maxHistory)
    (hent : w'.store.find? i.taskId = w.store.find? i.taskId) :
    Progress (ds ++ [d]) w' p i t₀ folded := by
  refine ⟨h.begun_snoc, h.task, h.bare, h.active, h.kept_snoc hE, h.follows_snoc hE (hsub _), ?_,
    ?_, fun hs => ?_⟩
  · rw [told_eq hT]
    exact h.consumed.mono fun hl => by simp [hl]
  · rw [hent, hmax]
    obtain ⟨e, he, htok, hf⟩ := h.stored
    exact ⟨e, he, htok, hf.imp_right fun hf => ⟨hf.1, hsub _ hf.2⟩⟩
  · rw [hent]
    exact (h.marked (hsig hs)).imp_left fun hl => by simp [hl]

theorem produced (h : Progress ds w p i t₀ folded) {around : Surroundings} {u : Option Update}
    {producer : Producer} (hc : around.cancelled = true ↔ i.token ∈ w.signalled)
    (ht : around.hasTaker = true) (hu : i.producer.advance? i.taskId around = some (u, producer)) :
    Progress (ds ++ [.produced i.token u])
      (w.assign p (some { i with producer, queue := i.queue ++ u.toList })) p
      { i with producer, queue := i.queue ++ u.toList } t₀ folded := by
  rw [h.task] at hu
  have hsame : decide (i.token ∈ w.signalled) = around.cancelled := by
    rw [Bool.eq_iff_iff, hc]
    exact decide_eq_true_iff
  have hfollows := h.follows
  rw [hsame, ← ht] at hfollows
  have hf := (Producer.moves_of_advance? hu).tracks hfollows
  have hemit : emittedIn (ds ++ [.produced i.token u]) i.token =
      emittedIn ds i.token ++ u.toList := by
    simp [emittedIn_snoc, Deed.emissions]
  refine ⟨h.begun_snoc, h.task, h.bare, h.active, ?_, ?_, ?_, h.stored, h.marked_snoc⟩
  · rw [hemit, h.kept, List.append_assoc]
  · rw [← hsame, ht] at hf
    exact hemit.symm ▸ hf
  · have hcons := h.consumed
    rw [told_eq rfl]
    cases hi : i.consumer with
    | receiving =>
        simp only [Invocation.Consumed, hi] at hcons ⊢
        exact hcons
    | forwarding m =>
        simp only [Invocation.Consumed, hi] at hcons ⊢
        exact hcons
    | stopped =>
        simp only [Invocation.Consumed, hi] at hcons ⊢
        rcases hcons with ⟨hl, hne⟩ | ⟨-, hended, -⟩
        · exact .inl ⟨by simp [hl], hne⟩
        · -- a producer that has ended takes no step
          exfalso
          unfold Producer.ending? at hended
          split at hended
          · rename_i hstage
            simp [Producer.advance?, hstage] at hu
          · cases hended

theorem stored_fold (h : Progress ds w p i t₀ folded) {u : Update} {rest : List Update}
    (hq : i.queue = u :: rest) (max : Nat) (timestamp : String) {e : TaskEntry}
    (hf : e.task.untimed = t₀.folding max folded ∨
      e.task.state = .canceled ∧ i.token ∈ w.signalled) :
    (e.fold max timestamp u).task.untimed = t₀.folding max (folded ++ [u]) ∨
      (e.fold max timestamp u).task.state = .canceled ∧ i.token ∈ w.signalled := by
  unfold TaskEntry.fold
  rcases hf with hf | ⟨hstate, hsig⟩
  · have hopen : e.task.state.isTerminal = false := by
      rw [(Folded.of_untimed hf).state, h.state_waiting (by simp [hq])]
      split
      · exact h.active
      · rfl
    rw [if_neg (by simp [hopen])]
    exact .inl (Task.folding_snoc hf)
  · rw [if_pos (by rw [hstate]; rfl)]
    exact .inr ⟨hstate, hsig⟩

theorem took (h : Progress ds w p i t₀ folded) {u : Update} {rest : List Update}
    (timestamp : String) (hc : i.consumer = .receiving) (hq : i.queue = u :: rest) :
    Progress (ds ++ [.silent])
      { w.assign p (some { i with queue := rest, consumer := i.onward u }) with
        store := w.store.update i.taskId u timestamp }
      p { i with queue := rest, consumer := i.onward u } t₀ (folded ++ [u]) := by
  have hfind : (w.store.update i.taskId u timestamp).find? i.taskId =
      (w.store.find? i.taskId).map (TaskEntry.fold w.store.maxHistory timestamp u) := by
    rw [TaskStore.find?_update, if_pos rfl]
  obtain ⟨e, he, htok, hf⟩ := h.stored
  rw [he] at hfind
  have hmax : (w.store.update i.taskId u timestamp).maxHistory = w.store.maxHistory :=
    TaskStore.maxHistory_update
  refine ⟨h.begun_snoc, h.task, h.bare, h.active, ?_, h.follows_snoc rfl id, ?_, ?_,
    fun hs => ?_⟩
  · rw [h.kept_snoc rfl, hq]
    simp
  · have hcons := h.consumed
    rw [told_eq rfl]
    simp only [Invocation.Consumed, hc] at hcons
    exact hcons.onward
  · refine ⟨_, hfind, by simpa using htok, ?_⟩
    rw [hmax]
    exact h.stored_fold hq _ _ hf
  · refine (h.marked_snoc hs).imp_right ?_
    rintro ⟨e', he', hstate⟩
    cases he.symm.trans he'
    refine ⟨_, hfind, ?_⟩
    rw [TaskEntry.fold, if_pos (by rw [hstate]; rfl)]
    exact hstate

theorem forwarded (h : Progress ds w p i t₀ folded) {m : Delivery}
    (hc : i.consumer = .forwarding m) :
    Progress (ds ++ [if i.subscriber.isSome then .told p m.message else .silent])
      (w.assign p (some { i with consumer := .receiving })) p { i with consumer := .receiving } t₀
      folded := by
  have hE : (if i.subscriber.isSome then Deed.told p m.message else .silent).emissions i.token =
      [] := by
    split <;> rfl
  refine ⟨h.begun_snoc, h.task, h.bare, h.active, h.kept_snoc hE, h.follows_snoc hE id, ?_,
    h.stored, h.marked_snoc⟩
  have hcons := h.consumed
  simp only [Invocation.Consumed, hc] at hcons
  obtain ⟨before, u, rfl, htold, hm⟩ := hcons
  intro s hs
  have hs : i.subscriber = some s := hs
  rw [toldIn_snoc, if_pos (by simp [hs]), htold s hs, List.map_append]
  simp [Deed.messages, hm s hs]

theorem waited (h : Progress ds w p i t₀ folded) {m m' : Delivery}
    (hc : i.consumer = .forwarding m) (hm : m'.message = m.message) :
    Progress (ds ++ [.silent]) (w.assign p (some { i with consumer := .forwarding m' })) p
      { i with consumer := .forwarding m' } t₀ folded := by
  refine ⟨h.begun_snoc, h.task, h.bare, h.active, h.kept_snoc rfl, h.follows_snoc rfl id, ?_,
    h.stored, h.marked_snoc⟩
  have hcons := h.consumed
  rw [told_eq rfl]
  simp only [Invocation.Consumed, hc] at hcons
  obtain ⟨before, u, hfold, htold, hmes⟩ := hcons
  exact ⟨before, u, hfold, htold, fun s hs => hm.trans (hmes s hs)⟩

theorem lost (h : Progress ds w p i t₀ folded) {m : Delivery} (hc : i.consumer = .forwarding m) :
    Progress (ds ++ [.lost p i.token])
      ((w.signal i.token).assign p (some { i with consumer := .stopped })) p
      { i with consumer := .stopped } t₀ folded := by
  have hsig : i.token ∈ ((w.signal i.token).assign p
      (some { i with consumer := .stopped })).signalled := mem_signal.mpr (.inl rfl)
  have hstore : ((w.signal i.token).assign p (some { i with consumer := .stopped })).store =
      w.store := store_signal
  refine ⟨h.begun_snoc, h.task, h.bare, h.active, h.kept_snoc rfl,
    h.follows_snoc rfl fun _ => hsig, ?_, ?_, fun _ => .inl (by simp)⟩
  · have hcons := h.consumed
    simp only [Invocation.Consumed, hc] at hcons
    obtain ⟨before, u, rfl, -, -⟩ := hcons
    exact .inl ⟨by simp, by simp⟩
  · rw [hstore]
    obtain ⟨e, he, htok, hf⟩ := h.stored
    exact ⟨e, he, htok, hf.imp_right fun hf => ⟨hf.1, hsig⟩⟩

theorem drained (h : Progress ds w p i t₀ folded) (hc : i.consumer = .receiving)
    (hq : i.queue = []) (he : i.producer.ending?.isSome) :
    Progress (ds ++ [.silent]) (w.assign p (some { i with consumer := .stopped })) p
      { i with consumer := .stopped } t₀ folded := by
  refine ⟨h.begun_snoc, h.task, h.bare, h.active, h.kept_snoc rfl, h.follows_snoc rfl id, ?_,
    h.stored, h.marked_snoc⟩
  have hcons := h.consumed
  rw [told_eq rfl]
  simp only [Invocation.Consumed, hc] at hcons
  exact .inr ⟨hq, he, hcons⟩

theorem cancelled (h : Progress ds w p i t₀ folded) {timestamp : String} {e : TaskEntry}
    (hsub : ∀ k ∈ w.signalled, k ∈ w'.signalled) (hsig : i.token ∈ w'.signalled)
    (he : w.store.find? i.taskId = some e)
    (hent : w'.store.find? i.taskId = some (e.cancel timestamp)) :
    Progress (ds ++ [.silent]) w' p i t₀ folded := by
  obtain ⟨e', he', htok, -⟩ := h.stored
  cases he.symm.trans he'
  refine ⟨h.begun_snoc, h.task, h.bare, h.active, h.kept_snoc rfl, h.follows_snoc rfl (hsub _), ?_,
    ⟨_, hent, htok, .inr ⟨rfl, hsig⟩⟩,
    fun _ => .inr ⟨_, hent, rfl⟩⟩
  rw [told_eq rfl]
  exact h.consumed.mono fun hl => by simp [hl]

theorem outcome (h : Progress ds w p i t₀ folded) {e : Ending} (he : i.ending? = some e) :
    i.consumer = .stopped ∧ i.producer.ending? = some e ∧
      ((e = (Plan.ofTask t₀).ending ∧
          (emittedIn ds i.token).map Update.untimed = (Plan.ofTask t₀).updates t₀.id) ∨
        (e = .failed .cancelled ∧ i.token ∈ w.signalled)) := by
  unfold Invocation.ending? at he
  split at he
  · rename_i hc
    refine ⟨hc, he, ?_⟩
    rcases h.follows.of_ended he with ⟨hplan, hall⟩ | ⟨f, rest, rfl, ⟨rfl, hc⟩ | ⟨-, hr⟩, -⟩
    · exact .inl ⟨hplan, hall⟩
    · exact .inr ⟨rfl, by simpa using hc⟩
    · cases hr
  · cases he

theorem emptied (h : Progress ds w p i t₀ folded) {e : Ending} (he : i.ending? = some e)
    (hlost : .lost p i.token ∉ ds) :
    i.queue = [] ∧ emittedIn ds i.token = folded ∧ i.Told (toldIn ds p) folded := by
  obtain ⟨hstop, -⟩ := h.outcome he
  have hcons := h.consumed
  simp only [Invocation.Consumed, hstop] at hcons
  obtain ⟨hq, -, htold⟩ := hcons.resolve_left fun hl => hlost hl.1
  exact ⟨hq, by rw [h.kept, hq, List.append_nil], htold⟩

theorem asking_of_waiting (h : Progress ds w p i t₀ folded) {e : Ending} {entry : TaskEntry}
    {timestamp : String} (he : i.ending? = some e) (hent : w.store.find? i.taskId = some entry)
    (hopen : (entry.finish e timestamp).task.state.isTerminal = false) :
    e = .reached .inputRequired ∧ (entry.finish e timestamp).task = entry.task ∧
      Folded t₀ folded entry.task := by
  obtain ⟨entry', hent', -, hf⟩ := h.stored
  cases hent.symm.trans hent'
  have hact : entry.task.state.isTerminal = false := by
    by_contra hterm
    rw [TaskEntry.finish, TaskStore.conclude_of_terminal (by simpa using hterm)] at hopen
    exact hterm hopen
  have hfold : Folded t₀ folded entry.task := by
    refine .of_untimed (hf.resolve_right ?_)
    rintro ⟨hcancel, -⟩
    rw [hcancel] at hact
    cases hact
  simp only [TaskEntry.finish, TaskStore.conclude, hact, Bool.false_eq_true, if_false] at hopen ⊢
  split at hopen
  · cases hopen
  · exact ⟨rfl, rfl, hfold⟩
  · cases hopen
  · cases hopen
  · cases hopen

end Progress

theorem Kept.start (h : w.IsNew) : Kept [] w where
  fresh k _ := ⟨rfl, by simp⟩
  bare id e he := by simp [TaskStore.find?, h.entries] at he
  progress p i hi := by simp [h.work] at hi

theorem Kept.go_on (h : Kept ds w) (hnext : w.nextToken ≤ w'.nextToken)
    (hE : ∀ k, w.nextToken ≤ k → d.emissions k = []) (hL : ∀ p k, d = .lost p k → k < w.nextToken)
    (hbare : ∀ id e, w'.store.find? id = some e → e.token = none →
      e.task.state.isTerminal = false → e.task.artifacts = [])
    (hwork : ∀ p i, w'.work p = some i → ∃ t₀ folded, Progress (ds ++ [d]) w' p i t₀ folded) :
    Kept (ds ++ [d]) w' where
  fresh k hk := by
    obtain ⟨hnone, hlost⟩ := h.fresh k (Nat.le_trans hnext hk)
    refine ⟨by rw [emittedIn_snoc, hnone, hE k (Nat.le_trans hnext hk)]; rfl, fun p hp => ?_⟩
    rcases List.mem_append.mp hp with hp | hp
    · exact hlost p hp
    · have hd := (List.mem_singleton.mp hp).symm
      exact absurd (hL p k hd) (Nat.not_lt.mpr (Nat.le_trans hnext hk))
  bare := hbare
  progress := hwork

theorem Kept.assign (h : Kept ds w) (hs : w.Sound) (hi : w.work p = some i) {o : Option Invocation}
    (hnext : w'.nextToken = w.nextToken)
    (hwork : ∀ q, w'.work q = if q = p then o else w.work q)
    (hE : ∀ k, k ≠ i.token → d.emissions k = []) (hT : ∀ q, q ≠ p → d.messages q = [])
    (hL : ∀ q k, d = .lost q k → k = i.token)
    (hsub : ∀ k ∈ w.signalled, k ∈ w'.signalled)
    (hsig : ∀ k ∈ w'.signalled, k = i.token ∨ k ∈ w.signalled)
    (hmax : w'.store.maxHistory = w.store.maxHistory)
    (hent : ∀ id, id ≠ i.taskId → w'.store.find? id = w.store.find? id)
    (hbare : ∀ e, w'.store.find? i.taskId = some e → e.token = none →
      e.task.state.isTerminal = false → e.task.artifacts = [])
    (hprog : ∀ j, o = some j → ∃ t₀ folded, Progress (ds ++ [d]) w' p j t₀ folded) :
    Kept (ds ++ [d]) w' := by
  have hlt := hs.token_lt hi
  refine h.go_on (Nat.le_of_eq hnext.symm) (fun k hk => hE k ?_) (fun q k hd => hL q k hd ▸ hlt)
    (fun id e he => ?_) fun q j hj => ?_
  · exact fun heq => absurd hlt (Nat.not_lt.mpr (heq ▸ hk))
  · by_cases hid : id = i.taskId
    · exact hbare e (hid ▸ he)
    · rw [hent id hid] at he
      exact h.bare id e he
  · rw [hwork] at hj
    split at hj
    · rename_i hq
      exact hq ▸ hprog j hj
    · rename_i hq
      obtain ⟨htok, hid⟩ := hs.other hi hj hq
      obtain ⟨t₀, folded, hp⟩ := h.progress q j hj
      exact ⟨t₀, folded, hp.frame (hE _ htok) (hT q hq) hsub
        (fun hk => (hsig _ hk).resolve_left htok) hmax (hent _ hid)⟩

theorem Kept.bare_same (h : Kept ds w) (hstore : w'.store = w.store) {id : String} :
    ∀ e, w'.store.find? id = some e → e.token = none → e.task.state.isTerminal = false →
      e.task.artifacts = [] :=
  fun e he => h.bare id e (hstore ▸ he)

theorem Kept.reassign (h : Kept ds w) (hs : w.Sound) (hi : w.work p = some i) {j : Invocation}
    (hE : ∀ k, k ≠ i.token → d.emissions k = []) (hT : ∀ q, q ≠ p → d.messages q = [])
    (hL : ∀ q k, d ≠ .lost q k)
    (hprog : Progress (ds ++ [d]) (w.assign p (some j)) p j t₀ folded) :
    Kept (ds ++ [d]) (w.assign p (some j)) := by
  refine h.assign hs hi rfl (fun q => work_assign) hE hT (fun q k hd => (hL q k hd).elim)
    (fun _ h => h) (fun _ h => .inr h) rfl (fun _ _ => rfl) (h.bare_same rfl) fun j' hj => ?_
  cases hj
  exact ⟨_, _, hprog⟩

theorem Kept.rest (h : Kept ds w) (hnext : w.nextToken ≤ w'.nextToken) (hstore : w'.store = w.store)
    (hsig : w'.signalled = w.signalled) (hwork : ∀ q j, w'.work q = some j → w.work q = some j) :
    Kept (ds ++ [.silent]) w' := by
  refine h.go_on hnext (fun _ _ => rfl) (by simp) (fun _ => h.bare_same hstore) fun q j hj => ?_
  obtain ⟨t₀, folded, hp⟩ := h.progress q j (hwork q j hj)
  exact ⟨t₀, folded, hp.frame rfl rfl (fun _ hk => hsig ▸ hk) (fun hk => hsig ▸ hk)
    (by rw [hstore]) (by rw [hstore])⟩

theorem Kept.began (h : Kept ds w) (hs : w.Sound) {params : TaskSendParams}
    {headers : List (String × String)} {timestamp : String} {task : Task} {store : TaskStore}
    {delay : Nanos} {subscriber : Option Subscriber}
    (hsend : w.store.send params headers w.nextToken timestamp = .ok (task, store))
    (hfit : Deed.Fits ds (.began p subscriber w.nextToken task)) :
    Kept (ds ++ [.began p subscriber w.nextToken task]) { w with
      store, nextToken := w.nextToken + 1
      work := Function.update w.work p (some (.start delay task w.nextToken subscriber)) } := by
  obtain ⟨hfind, hold⟩ := TaskStore.send_spec hsend
  have hid := hs.id_of_send hsend
  have htask : task.artifacts = [] ∧ task.state.isTerminal = false := by
    rcases hold with ⟨-, hc⟩ | ⟨e, he, htok, hopen, rfl⟩
    · obtain ⟨-, hstate, hart⟩ := TaskStore.create_spec hc
      exact ⟨hart, by rw [hstate]; rfl⟩
    · exact ⟨h.bare _ _ he htok hopen, hopen⟩
  have hfree : w.slot params.id = none := by
    rcases hold with ⟨hnone, -⟩ | ⟨e, he, htok, -⟩
    · simp [slot, hnone]
    · simp [slot, he, htok]
  obtain ⟨hart, hopen⟩ := htask
  refine h.go_on (Nat.le_succ _) (fun _ _ => rfl) (by simp) (fun id e he htok hterm => ?_)
    fun q j hj => ?_
  · rw [hfind] at he
    split at he
    · cases he
      cases htok
    · exact h.bare id e he htok hterm
  · dsimp only at hj
    rw [Function.update_apply] at hj
    split at hj
    · rename_i hq
      cases hj
      subst hq
      obtain ⟨hnone, hlost⟩ := h.fresh _ (Nat.le_refl _)
      have hemit : emittedIn (ds ++ [.began q subscriber w.nextToken task]) w.nextToken = [] := by
        rw [emittedIn_snoc, hnone]
        rfl
      have hent : store.find? task.id = some ⟨task, some w.nextToken⟩ := by
        rw [hfind, if_pos hid]
      refine ⟨task, [], ⟨subscriber, by simp [Invocation.start]⟩, rfl, hart, hopen, hemit, ?_,
        fun s hsub => ?_, ⟨_, hent, rfl, .inl rfl⟩, fun hsig => ?_⟩
      · exact hemit.symm ▸ Producer.tracks_start
      · have hsub : subscriber = some s := hsub
        subst hsub
        rw [toldIn_snoc, toldIn, hfit q s _ _ rfl]
        rfl
      · exact absurd (hs.signalled_lt _ hsig) (Nat.lt_irrefl _)
    · rename_i hq
      obtain ⟨t₀, folded, hp⟩ := h.progress q j hj
      have hslot := hs.work_slot q j hj
      have hne : j.taskId ≠ params.id := by
        intro heq
        simp [heq, hfree] at hslot
      exact ⟨t₀, folded, hp.frame rfl rfl (fun _ => id) id (TaskStore.maxHistory_send hsend)
        (by rw [hfind, if_neg hne])⟩

theorem Kept.cancelled (h : Kept ds w) (hs : w.Sound) {id timestamp : String} {task : Task}
    {token : Option Token} {store : TaskStore}
    (hc : w.store.cancel id timestamp = .ok (task, token, store)) :
    Kept (ds ++ [.silent]) { token.elim w (fun k => w.signal k) with store } := by
  obtain ⟨e, he, -, rfl, hfind⟩ := TaskStore.cancel_spec hc
  obtain ⟨hnext, hwork, hsub, hsig⟩ :
      (e.token.elim w fun k => w.signal k).nextToken = w.nextToken ∧
      (e.token.elim w fun k => w.signal k).work = w.work ∧
      (∀ k ∈ w.signalled, k ∈ (e.token.elim w fun k => w.signal k).signalled) ∧
      ∀ k, k ∈ (e.token.elim w fun k => w.signal k).signalled ↔
        e.token = some k ∨ k ∈ w.signalled := by
    cases e.token with
    | none => exact ⟨rfl, rfl, fun _ h => h, fun k => by simp⟩
    | some k =>
        refine ⟨nextToken_signal, work_signal, fun k' hk' => ?_, fun k' => ?_⟩
        · exact mem_signal.mpr (.inr hk')
        · simp [mem_signal, eq_comm]
  refine h.go_on (Nat.le_of_eq hnext.symm) (fun _ _ => rfl) (by simp)
    (fun q e' he' htok hterm => ?_) fun q j hj => ?_
  · rw [hfind] at he'
    split at he'
    · cases he'
      cases hterm
    · exact h.bare q e' he' htok hterm
  · have hj : w.work q = some j := by rwa [← hwork]
    obtain ⟨t₀, folded, hp⟩ := h.progress q j hj
    refine ⟨t₀, folded, ?_⟩
    have hslot := hs.work_slot q j hj
    by_cases hid : j.taskId = id
    · have htok : e.token = some j.token := by
        rw [hid, slot, he] at hslot
        exact hslot
      have hent : store.find? j.taskId = some (e.cancel timestamp) := by rw [hfind, if_pos hid]
      exact hp.cancelled hsub ((hsig _).mpr (.inl htok)) (hid ▸ he) hent
    · refine hp.frame rfl rfl hsub (fun hk => ((hsig _).mp hk).resolve_left fun htok => hid ?_)
        (TaskStore.maxHistory_cancel hc) ?_
      · exact hs.slot_inj _ _ _ hslot (by simp [slot, he, htok])
      · rw [hfind, if_neg hid]

theorem Kept.step (h : Kept ds w) (hs : w.Sound) (hstep : Step w d w') (hfit : Deed.Fits ds d) :
    Kept (ds ++ [d]) w' := by
  cases hstep with
  | rest => exact h.rest (Nat.le_refl _) rfl rfl fun _ _ hj => hj
  | watched p hp => exact h.rest (Nat.le_succ _) rfl rfl fun _ _ hj => hj
  | @halted p k hp =>
      refine h.go_on (Nat.le_of_eq nextToken_signal.symm) (fun _ _ => rfl) (by simp)
        (fun _ => h.bare_same store_signal) fun q j hj => ?_
      rw [work_signal] at hj
      obtain ⟨t₀, folded, hprog⟩ := h.progress q j hj
      refine ⟨t₀, folded, hprog.frame rfl rfl (fun _ h => mem_signal.mpr (.inr h))
        (fun hk => (mem_signal.mp hk).resolve_left ?_) (by rw [store_signal]) (by rw [store_signal])⟩
      rintro rfl
      exact hs.unwatched _ _ _ (hs.work_slot q j hj) hp
  | dismissed p =>
      refine h.rest (Nat.le_refl _) rfl rfl fun q j hj => ?_
      rw [work_assign] at hj
      split at hj
      · cases hj
      · exact hj
  | began _ _ hsend => exact h.began hs hsend hfit
  | @produced p i around u producer hi hc ht hu =>
      obtain ⟨t₀, folded, hp⟩ := h.progress p i hi
      refine h.reassign hs hi (fun k hk => ?_) (fun _ _ => rfl) (by simp) (hp.produced hc ht hu)
      simp [Deed.emissions, Ne.symm hk]
  | @took p i u rest timestamp hi hc hq =>
      obtain ⟨t₀, folded, hp⟩ := h.progress p i hi
      refine h.assign hs hi rfl (fun q => work_assign) (fun _ _ => rfl) (fun _ _ => rfl) (by simp)
        (fun _ h => h) (fun _ h => .inr h) TaskStore.maxHistory_update (fun id hid => ?_)
        (fun e he htok => ?_) fun j hj => ?_
      · rw [TaskStore.find?_update, if_neg hid]
      · -- the entry of a task that is worked on has a token
        obtain ⟨e', he', htok', -⟩ := (hp.took timestamp hc hq).stored
        cases he.symm.trans he'
        cases htok.symm.trans htok'
      · cases hj
        exact ⟨t₀, _, hp.took timestamp hc hq⟩
  | @forwarded p i m hi hc =>
      obtain ⟨t₀, folded, hp⟩ := h.progress p i hi
      refine h.reassign hs hi (fun k _ => ?_) (fun q hq => ?_) (fun q k => ?_) (hp.forwarded hc)
      · split <;> rfl
      · split <;> simp [Deed.messages, Ne.symm hq]
      · split <;> simp
  | @waited p i m m' hi hc hm =>
      obtain ⟨t₀, folded, hp⟩ := h.progress p i hi
      exact h.reassign hs hi (fun _ _ => rfl) (fun _ _ => rfl) (by simp) (hp.waited hc hm)
  | @lost p i m hi hc hsub =>
      obtain ⟨t₀, folded, hp⟩ := h.progress p i hi
      refine h.assign (o := some { i with consumer := .stopped }) hs hi nextToken_signal
        (fun q => ?_) (fun _ _ => rfl) (fun _ _ => rfl) (fun q k hd => ?_)
        (fun _ h => mem_signal.mpr (.inr h)) (fun _ h => mem_signal.mp h)
        (congrArg TaskStore.maxHistory store_signal) (fun _ _ => ?_)
        (h.bare_same store_signal) fun j hj => ?_
      · rw [work_assign, work_signal]
      · cases hd
        rfl
      · exact congrArg (TaskStore.find? · _) store_signal
      · cases hj
        exact ⟨t₀, folded, hp.lost hc⟩
  | @drained p i hi hc hq he =>
      obtain ⟨t₀, folded, hp⟩ := h.progress p i hi
      exact h.reassign hs hi (fun _ _ => rfl) (fun _ _ => rfl) (by simp) (hp.drained hc hq he)
  | @concluded p i ending timestamp hi he =>
      obtain ⟨t₀, folded, hp⟩ := h.progress p i hi
      refine h.assign hs hi rfl (fun q => work_assign) (fun _ _ => rfl) (fun _ _ => rfl) (by simp)
        (fun _ h => h) (fun _ h => .inr h) TaskStore.maxHistory_finish (fun id hid => ?_)
        (fun e hfin htok hterm => ?_)
        (fun j hj => by cases hj)
      · rw [TaskStore.find?_finish, if_neg hid]
      · obtain ⟨entry, hent, -, -⟩ := hp.stored
        rw [TaskStore.find?_finish, if_pos rfl, hent] at hfin
        cases hfin
        obtain ⟨hask, hsame, hfold⟩ := hp.asking_of_waiting he hent hterm
        obtain ⟨first, middle, last, hscript⟩ := hp.script
        obtain ⟨-, -, ⟨hplan, -⟩ | ⟨hcan, -⟩⟩ := hp.outcome he
        · rw [hsame, hfold.artifacts, hp.bare,
            hscript.chunks_asking hp.folded_prefix (hplan.symm.trans hask)]
          rfl
        · rw [hask] at hcan
          cases hcan
  | cancelled hc => exact h.cancelled hs hc

theorem Path.kept (h : Path ds w) : Kept ds w := by
  induction h with
  | start h => exact .start h
  | snoc hpath hstep hfit ih => exact ih.step hpath.sound hstep hfit

end Workshop

end AgentGateway
