import AgentGateway.Proofs.Replies
/-!
The states that a task goes through. The store takes any status of an unfinished task; that states
follow each other as they do rests on what producers emit, on the order in which it is folded, and
on who may begin to work on a task.
-/

namespace AgentGateway

open Gateway

inductive TaskState.Moves : TaskState → TaskState → Prop
  | begins : Moves .submitted .working
  | withdrawn : Moves .submitted .canceled
  | asks : Moves .working .inputRequired
  | completes : Moves .working .completed
  | fails : Moves .working .failed
  | stops : Moves .working .canceled
  | resumes : Moves .inputRequired .working
  | declined : Moves .inputRequired .canceled

namespace TaskState

variable {a b : TaskState}

theorem moves_canceled (h : a.isTerminal = false) : a.Moves .canceled := by
  cases a with
  | submitted => exact .withdrawn
  | working => exact .stops
  | inputRequired => exact .declined
  | completed | failed | canceled => cases h

theorem moves_working (h : a.isTerminal = false) : .working = a ∨ a.Moves .working := by
  cases a with
  | submitted => exact .inr .begins
  | working => exact .inl rfl
  | inputRequired => exact .inr .resumes
  | completed | failed | canceled => cases h

theorem Moves.active (h : a.Moves b) : a.isTerminal = false := by
  cases h <;> rfl

end TaskState

theorem Ending.moves_state (e : Ending) : TaskState.Moves .working e.state := by
  rcases e with (_ | _) | (_ | _ | _ | _)
  · exact .completes
  · exact .asks
  all_goals first | exact .stops | exact .fails

theorem TaskStore.state_conclude_active {ending : Ending} {timestamp : String} {t : Task}
    (h : t.state.isTerminal = false) (hne : ending ≠ .reached .inputRequired) :
    (conclude ending timestamp t).state = ending.state := by
  unfold conclude
  rw [if_neg (by simp [h])]
  rcases ending with (_ | _) | (_ | _ | _ | _) <;> first | rfl | exact absurd rfl hne

namespace Workshop

variable {w w' : Workshop} {ds : List Deed} {d : Deed} {p : ProcessId} {i j : Invocation}
  {id : String} {e : TaskEntry} {t₀ : Task} {folded : List Update}

namespace Progress

theorem state_next (hp : Progress ds w p i t₀ folded) {u : Update} {rest : List Update}
    (hq : i.queue = u :: rest) : stateAfter (folded ++ [u]) t₀.state = .working ∨
      (folded ≠ [] ∧ stateAfter (folded ++ [u]) t₀.state = (Plan.ofTask t₀).ending.state) := by
  obtain ⟨first, middle, last, hs⟩ := hp.script
  have hprefix : (folded ++ [u]).map Update.untimed <+: (Plan.ofTask t₀).updates t₀.id := by
    obtain ⟨more, hmore⟩ := hp.follows.isPrefix
    rw [hp.kept, hq, List.append_cons, List.map_append, List.append_assoc] at hmore
    exact ⟨_, hmore⟩
  by_cases hall : (folded ++ [u]).map Update.untimed = (Plan.ofTask t₀).updates t₀.id
  · refine .inr ⟨?_, hs.state_after hall⟩
    rintro rfl
    -- the plan has two updates at least
    rw [hs.eq] at hall
    have hlength := congrArg List.length hall
    simp at hlength
  · left
    rw [hs.state_before hprefix hall, if_neg (by simp)]

theorem moves_fold (hp : Progress ds w p i t₀ folded) {u : Update} {rest : List Update}
    (hq : i.queue = u :: rest) (he : w.store.find? i.taskId = some e) (timestamp : String) :
    let after := (e.fold w.store.maxHistory timestamp u).task.state
    (after = e.task.state ∨ e.task.state.Moves after) ∧
      (e.task.state = .inputRequired → after = .working →
        folded = [] ∧ t₀.state = .inputRequired) := by
  intro after
  obtain ⟨e', he', -, hf⟩ := hp.stored
  cases he.symm.trans he'
  rcases hf with hf | ⟨hcanceled, -⟩
  · have hbefore := (Folded.of_untimed hf).state
    rw [hp.state_waiting (by simp [hq])] at hbefore
    have hactive : e.task.state.isTerminal = false := by
      rw [hbefore]
      split
      · exact hp.active
      · rfl
    have hafter : after = stateAfter (folded ++ [u]) t₀.state := by
      have hfolded : (TaskStore.fold w.store.maxHistory timestamp u e.task).untimed =
          t₀.folding w.store.maxHistory (folded ++ [u]) := Task.folding_snoc hf
      have hsame : after = (TaskStore.fold w.store.maxHistory timestamp u e.task).state := by
        simp [after, TaskEntry.fold, hactive]
      rw [hsame, (Folded.of_untimed hfolded).state]
    constructor
    · rcases hp.state_next hq with hnext | ⟨hne, hnext⟩
      · rw [hafter, hnext]
        exact TaskState.moves_working hactive
      · rw [hafter, hnext, hbefore, if_neg hne]
        exact .inr (Ending.moves_state _)
    · intro hwaits _
      rw [hwaits] at hbefore
      split at hbefore
      · rename_i hnil
        exact ⟨hnil, hbefore.symm⟩
      · cases hbefore
  · have hsame : after = e.task.state := by
      have hterminal : e.task.state.isTerminal = true := by rw [hcanceled]; rfl
      simp [after, TaskEntry.fold, hterminal]
    refine ⟨.inl hsame, fun hwaits => ?_⟩
    cases hcanceled.symm.trans hwaits

theorem moves_finish (hp : Progress ds w p i t₀ folded) {ending : Ending}
    (hending : i.ending? = some ending) (he : w.store.find? i.taskId = some e)
    (timestamp : String) :
    let after := (e.finish ending timestamp).task.state
    after = e.task.state ∨ after ≠ .working ∧ e.task.state.Moves after := by
  intro after
  by_cases hopen : e.task.state.isTerminal = true
  · left
    simp only [after, TaskEntry.finish, TaskStore.conclude_of_terminal hopen]
  have hactive : e.task.state.isTerminal = false := by simpa using hopen
  by_cases hasks : ending = .reached .inputRequired
  · left
    subst hasks
    simp [after, TaskEntry.finish, TaskStore.conclude]
  have hafter : after = ending.state := TaskStore.state_conclude_active hactive hasks
  have hended : ending.state.isTerminal = true := by
    rcases ending with (_ | _) | (_ | _ | _ | _) <;> first | rfl | exact absurd rfl hasks
  have hne : after ≠ .working := by
    rw [hafter]
    rintro hworking
    rw [hworking] at hended
    cases hended
  refine .inr ⟨hne, ?_⟩
  rw [hafter]
  by_cases hcut : ending = .failed .cancelled
  · subst hcut
    exact TaskState.moves_canceled hactive
  obtain ⟨e', he', -, hf⟩ := hp.stored
  cases he.symm.trans he'
  have hfold : Folded t₀ folded e.task := by
    refine .of_untimed (hf.resolve_right ?_)
    rintro ⟨hcanceled, -⟩
    rw [hcanceled] at hactive
    cases hactive
  -- an end that was told of has been folded, unless the subscriber was lost before
  by_cases hq : i.queue = []
  · rw [hp.ended hending hcut hq hfold, hended] at hactive
    cases hactive
  · rw [hp.working hending hq hfold]
    exact ending.moves_state

end Progress

theorem Step.moves (h : Step w d w') (hk : Kept ds w) (he : w.store.find? id = some e) :
    ∃ e', w'.store.find? id = some e' ∧
      (e'.task.state = e.task.state ∨ e.task.state.Moves e'.task.state) ∧
      (e.task.state = .inputRequired → e'.task.state = .working →
        ∃ p i u rest, w.work p = some i ∧ i.taskId = id ∧ i.queue = u :: rest ∧
          ∀ {ds t₀ folded}, Progress ds w p i t₀ folded →
            folded = [] ∧ t₀.state = .inputRequired) := by
  have hleaves := h.leaves id
  generalize w'.store.find? id = o at hleaves
  have same {e' : TaskEntry} (hsame : e'.task.state = e.task.state) :
      (e'.task.state = e.task.state ∨ e.task.state.Moves e'.task.state) ∧
        (e.task.state = .inputRequired → e'.task.state = .working →
          ∃ p i u rest, w.work p = some i ∧ i.taskId = id ∧ i.queue = u :: rest ∧
            ∀ {ds t₀ folded}, Progress ds w p i t₀ folded →
              folded = [] ∧ t₀.state = .inputRequired) := by
    refine ⟨.inl hsame, fun hwaits hworks => ?_⟩
    cases hwaits.symm.trans (hsame.symm.trans hworks)
  cases hleaves with
  | kept => exact ⟨e, he, same rfl⟩
  | created hnone _ => cases he.symm.trans hnone
  | resumed he₁ hstate =>
      cases he.symm.trans he₁
      exact ⟨_, rfl, same hstate⟩
  | cancelled he₁ hactive =>
      cases he.symm.trans he₁
      refine ⟨_, rfl, .inr (TaskState.moves_canceled hactive), fun _ hworks => ?_⟩
      cases hworks
  | @folded p i u rest timestamp hi hid hq =>
      subst hid
      obtain ⟨t₀, folded, hp⟩ := hk.progress p i hi
      refine ⟨_, by rw [he]; rfl, (hp.moves_fold hq he timestamp).1, fun hwaits hworks => ?_⟩
      exact ⟨p, i, u, rest, hi, rfl, hq, fun hp => (hp.moves_fold hq he timestamp).2 hwaits hworks⟩
  | @finished p i ending timestamp hi hid hending =>
      subst hid
      obtain ⟨t₀, folded, hp⟩ := hk.progress p i hi
      have hmoves := hp.moves_finish hending he timestamp
      refine ⟨_, by rw [he]; rfl, hmoves.imp_right And.right, fun hwaits hworks => ?_⟩
      rcases hmoves with hsame | ⟨hne, -⟩
      · cases hwaits.symm.trans (hsame.symm.trans hworks)
      · exact absurd hworks hne

theorem Step.submitted (h : Step w d w') (hnone : w.store.find? id = none)
    (he : w'.store.find? id = some e) : e.task.state = .submitted := by
  have hleaves := h.leaves id
  rw [he] at hleaves
  generalize hstored : some e = o at hleaves
  cases hleaves with
  | kept => cases hstored.trans hnone
  | created _ hstate =>
      cases hstored
      exact hstate
  | resumed he₁ _ | cancelled he₁ _ => cases hnone.symm.trans he₁
  | folded | finished =>
      rw [hnone] at hstored
      cases hstored

theorem Step.queue_le (h : Step w d w') (hi : w.work p = some i) (hj : w'.work p = some j) :
    j.queue.length ≤ i.queue.length + (d.emissions i.token).length := by
  have same (hj : w.work p = some j) :
      j.queue.length ≤ i.queue.length + (d.emissions i.token).length := by
    cases hi.symm.trans hj
    exact Nat.le_add_right _ _
  have assigned {w₁ : Workshop} {q : ProcessId} {o : Option Invocation}
      (hj : (w₁.assign q o).work p = some j) (hw : w₁.work = w.work)
      (ho : w.work q = some i → ∀ j, o = some j →
        j.queue.length ≤ i.queue.length + (d.emissions i.token).length) :
      j.queue.length ≤ i.queue.length + (d.emissions i.token).length := by
    rw [work_assign] at hj
    split at hj
    · rename_i hq
      exact ho (hq ▸ hi) j hj
    · exact same (hw ▸ hj)
  cases h with
  | rest | watched _ _ => exact same hj
  | halted =>
      rw [work_signal] at hj
      exact same hj
  | dismissed => exact assigned hj rfl (by simp)
  | @began q params headers timestamp delay subscriber task store hfree hw hsend =>
      have hj : Function.update w.work q _ p = some j := hj
      rw [Function.update_apply] at hj
      split at hj
      · rename_i hq
        rw [hq, hfree] at hi
        cases hi
      · exact same hj
  | produced hi' =>
      refine assigned hj rfl fun hi j hj => ?_
      cases hi'.symm.trans hi
      cases hj
      simp [Deed.emissions]
  | took hi' _ hq =>
      refine assigned hj rfl fun hi j hj => ?_
      cases hi'.symm.trans hi
      cases hj
      simp only [hq, List.length_cons]
      omega
  | forwarded hi' | waited hi' | drained hi' =>
      refine assigned hj rfl fun hi j hj => ?_
      cases hi'.symm.trans hi
      cases hj
      exact Nat.le_add_right _ _
  | lost hi' =>
      refine assigned hj work_signal fun hi j hj => ?_
      cases hi'.symm.trans hi
      cases hj
      exact Nat.le_add_right _ _
  | concluded => exact assigned hj rfl (by simp)
  | @cancelled id timestamp task token store hc =>
      have hwork : (token.elim w fun k => w.signal k).work = w.work := by
        cases token with
        | none => rfl
        | some k => exact work_signal
      have hj : (token.elim w fun k => w.signal k).work p = some j := hj
      rw [hwork] at hj
      exact same hj

end Workshop

namespace Gateway

variable {g g' : Gateway} {id : String} {m : Message} {p q : ProcessId} {i : Invocation}
  {task : Task}

theorem inner_handle (h : m.method = none ∨ m.id = none) : (g.handle id m).2.inner = g.inner := by
  unfold handle
  split
  · rfl
  · rename_i r s hget
    have hvalid : (g.validate r s m).2.inner = g.inner := rfl
    split
    · rename_i heq
      rw [heq] at hvalid
      exact hvalid
    · rename_i g₁ heq
      rw [heq] at hvalid
      unfold handleValid
      split
      · exact inner_resolve.trans hvalid
      · exact inner_handleNotification.trans hvalid
      · rename_i hmethod hid
        rw [hmethod, hid] at h
        simp at h

theorem nextToken_cancelled {token : Option Token} {store : TaskStore} :
    { token.elim g (fun k => g.signal k) with store }.nextToken = g.nextToken := by
  cases token with
  | none => rfl
  | some k =>
      have hsignal : (g.signal k).workshop = g.workshop.signal k := workshop_signal
      exact (congrArg Workshop.nextToken hsignal).trans Workshop.nextToken_signal

theorem accepts_of_handle (h : (g.handle id m).2.nextToken ≠ g.nextToken) :
    ∃ method peer params task, (method = .tasksSend ∨ method = .tasksSendSubscribe) ∧
      g.Accepts method id m peer params task := by
  cases hmethod : m.method with
  | none => exact absurd (nextToken_of_inner (inner_handle (.inl hmethod))) h
  | some name =>
      cases hid : m.id with
      | none => exact absurd (nextToken_of_inner (inner_handle (.inr hid))) h
      | some request =>
          have hhandled : Handled g (g.handle id m).1 (g.handle id m).2 := handled_handle
          rcases answers_or_accepts hmethod hid with ⟨reply, hreply, -⟩ | ⟨hcalling, -⟩ |
            ⟨method, peer, params, task, hsends, -, haccepts⟩
          · -- what is answered at once has not taken a token
            exfalso
            apply h
            rw [hreply] at hhandled
            generalize (g.handle id m).2 = g' at hhandled
            cases hhandled with
            | calm hg => exact nextToken_of_inner hg
            | cancelled _ hg => exact (nextToken_of_inner hg).trans nextToken_cancelled
          · rw [hcalling] at hhandled
            generalize (g.handle id m).2 = g' at hhandled h
            cases hhandled with
            | called hg => exact absurd (nextToken_of_inner hg) h
          · exact ⟨method, peer, params, task, hsends, haccepts⟩

theorem incoming_of_control (h : g.control? q = some g') (hne : g'.nextToken ≠ g.nextToken) :
    ∃ id m, (g.process? q).bind Process.incoming? = some (id, m) ∧
      (g.handle id m).2.nextToken ≠ g.nextToken := by
  obtain ⟨x, y, g₁, hx, hw, rfl⟩ := worked_control? h
  have hne : g₁.nextToken ≠ g.nextToken := hne
  cases hw with
  | calm _ _ _ hg => exact absurd (nextToken_of_inner hg) hne
  | called _ _ _ _ _ _ hg =>
      exact absurd ((nextToken_of_inner hg).trans (nextToken_of_inner inner_wake)) hne
  | handled _ _ _ _ _ hin =>
      obtain ⟨id, m, hin, hhandle⟩ := hin
      refine ⟨id, m, by rw [hx]; exact hin, ?_⟩
      rw [hhandle]
      exact hne
  | concluded => exact absurd rfl hne

end Gateway

def Gateway.state? (id : String) (g : Gateway) : Option TaskState :=
  (g.store.find? id).map fun e => e.task.state

section Run

variable {g₀ g g' : Gateway} {ms past before between : List Moment} {ds : List Deed} {m b : Moment}
  {a : Act} {p q : ProcessId} {i i₀ j : Invocation} {task : Task} {id : String}

theorem History.accepts (h : History ms ds b.before) (hstep : b.before.perform b.act = some b.after)
    (hb : b.Starts p i task) : ∃ method q peer params,
      (method = .tasksSend ∨ method = .tasksSendSubscribe) ∧
      b.Accepts method q peer params task ∧ params.id = task.id := by
  obtain ⟨g, a, g'⟩ := b
  obtain ⟨-, d, hw, hshows⟩ := simulated_perform h.numbered hstep
  have hsound := h.path.sound.step hw
  have hidle : g.workshop.work p = none := by
    have hidle : g.invocation? p = none := hb.idle
    simp [workshop, hidle]
  obtain ⟨q, rfl⟩ : ∃ q, a = .control q := by
    rcases hw.work (work_eq hb.begun) with ⟨j, hj, -⟩ | ⟨-, t, hd, -⟩
    · cases hidle.symm.trans hj
    · exact hshows.caused _ _ _ _ hd
  have hslot : g'.workshop.slot task.id = some g.nextToken := by
    have hentry : g'.store.find? task.id = some ⟨task, some g.nextToken⟩ := hb.token ▸ hb.entry
    simp [Workshop.slot, workshop, hentry]
  have htaken : g.nextToken < g'.nextToken := hsound.slot_lt _ _ hslot
  obtain ⟨id, m, hin, hhandle⟩ := incoming_of_control hstep (Nat.ne_of_gt htaken)
  obtain ⟨method, peer, params, t, hsends, haccepts⟩ := accepts_of_handle hhandle
  obtain ⟨x, hx, hxin⟩ := Option.bind_eq_some_iff.mp hin
  -- both have the token of this moment, and so they are one
  have hentry : g'.store.find? t.id = some ⟨t, some g.nextToken⟩ := by
    rcases hsends with rfl | rfl
    · obtain ⟨j, hj, -⟩ := starts_send hx hxin haccepts h.path.sound hstep
      exact hj.token ▸ hj.entry
    · obtain ⟨j, hj, -⟩ := starts_subscribe h.numbered hx hxin haccepts h.path.sound hstep
      exact hj.token ▸ hj.entry
  have hid : t.id = task.id :=
    hsound.slot_inj _ _ _ (by simp [Workshop.slot, workshop, hentry]) hslot
  have hsame : some (⟨t, some g.nextToken⟩ : TaskEntry) = some ⟨task, some g.nextToken⟩ := by
    rw [← hentry, hid]
    exact hb.token ▸ hb.entry
  cases hsame
  obtain ⟨s, store, -, -, hsend⟩ := haccepts.taken
  exact ⟨method, q, peer, params, hsends, ⟨rfl, id, m, hin, haccepts⟩,
    (h.path.sound.id_of_send hsend).symm⟩

theorem Run.source (h₀ : g₀.IsNew) (hr : Run g₀ ms g) (hi : g.invocation? p = some i) :
    ∃ before b between i₀ task, ms = before ++ b :: between ∧ b.Starts p i₀ task ∧
      i.token = i₀.token := by
  induction hr generalizing i with
  | nil =>
      have hidle : g₀.workshop.work p = none := h₀.workshop.work p
      simp [workshop, hi] at hidle
  | @snoc ms g a g' hrun hstep ih =>
      obtain ⟨ds, hh⟩ := hrun.history h₀
      obtain ⟨-, d, hw, -⟩ := simulated_perform hh.numbered hstep
      rcases hw.work (work_eq hi) with ⟨j, hj, -, htok, -⟩ | ⟨hnone, t, hd, htok⟩
      · obtain ⟨j, hinv, rfl⟩ := exists_of_work hj
        obtain ⟨before, b, between, i₀, task, rfl, hb, hk⟩ := ih hinv
        exact ⟨before, b, between ++ [⟨g, a, g'⟩], i₀, task, by simp, hb, htok.symm.trans hk⟩
      · have hidle : g.invocation? p = none := Option.map_eq_none_iff.mp hnone
        obtain ⟨-, hentry⟩ := hw.entry hh.path.sound hd
        exact ⟨ms, ⟨g, a, g'⟩, [], i, t, rfl, ⟨hidle, hi, htok, hentry⟩, rfl⟩

theorem Run.rests (h₀ : g₀.IsNew) (hr : Run g₀ (before ++ b :: between) g) (hb : b.Starts p i₀ task)
    (hi : g.invocation? p = some i) (hk : i.token = i₀.token)
    (hq : ((before ++ b :: between).flatMap (Moment.emitted i.token)).length ≤ i.queue.length) :
    ∀ n ∈ between, n.before.state? task.id = some task.state ∨
      n.before.state? task.id = some .canceled := by
  obtain ⟨hrun, hstep, hrest⟩ := hr.split rfl
  obtain ⟨ds, hh⟩ := hrun.history h₀
  have htaken := (hh.starts hstep hb).token_lt hb.begun
  have hn := (hrun.snoc hstep).numbered h₀.numbered
  clear hr hh
  induction hrest generalizing i with
  | nil =>
      intro n hn
      cases hn
  | @snoc between g a g' hbetween hlast ih =>
      have hr : Run g₀ (before ++ b :: between) g := by
        rw [List.append_cons]
        exact (hrun.snoc hstep).append hbetween
      obtain ⟨es, hh⟩ := hr.history h₀
      obtain ⟨d, hw, hh'⟩ := hh.snoc hlast
      rcases hw.work (work_eq hi) with ⟨j, hj, -, htok, -⟩ | ⟨-, t, -, hnew⟩
      · have hqueue := hw.queue_le hj (work_eq hi)
        obtain ⟨j, hinv, rfl⟩ := exists_of_work hj
        have htok : j.token = i.token := htok
        have hqueue : i.queue.length ≤ j.queue.length + (d.emissions j.token).length := hqueue
        obtain ⟨-, -, fs, folded, hfs, hp⟩ := hr.stems h₀ hb hinv (htok.trans hk)
        have hkept : emittedIn es j.token = folded ++ j.queue := by
          rw [← hh.emitted, hfs.emitted]
          exact hp.kept
        have hmore : ((before ++ b :: (between ++ [⟨g, a, g'⟩])).flatMap
            (Moment.emitted i.token)) = emittedIn es j.token ++ d.emissions j.token := by
          have hall := hh'.emitted j.token
          rw [emittedIn_snoc] at hall
          rw [← hall, ← htok]
          simp
        rw [hmore, List.length_append, hkept, List.length_append] at hq
        have hnil : folded = [] := List.length_eq_zero_iff.mp (by omega)
        subst hnil
        intro n hmem
        rcases List.mem_append.mp hmem with hmem | hmem
        · refine ih hinv (htok.trans hk) ?_ n hmem
          rw [hh.emitted, hkept]
          exact Nat.le_refl _
        · obtain rfl := List.mem_singleton.mp hmem
          obtain ⟨e, he, -, hf⟩ := hp.stored
          have hid : j.taskId = task.id := hp.task
          have he : g.store.find? task.id = some e := hid ▸ he
          simp only [state?, he, Option.map_some, Option.some.injEq]
          exact hf.imp (fun hf => (Folded.of_untimed hf).state) And.left
      · have hlt : i₀.token < g.nextToken := Nat.lt_of_lt_of_le htaken (hbetween.nextToken_le hn)
        exact absurd (hk.symm.trans hnew) (Nat.ne_of_lt hlt)

theorem History.moves (h : History ms ds g) (hstep : g.perform a = some g') {s : TaskState}
    (hs : g.state? id = some s) : ∃ s', g'.state? id = some s' ∧ (s' = s ∨ s.Moves s') := by
  obtain ⟨d, hw, -⟩ := h.snoc hstep
  obtain ⟨e, he, rfl⟩ := Option.map_eq_some_iff.mp hs
  obtain ⟨e', he', hmoves, -⟩ := hw.moves h.path.kept he
  exact ⟨e'.task.state, Option.map_eq_some_iff.mpr ⟨e', he', rfl⟩, hmoves⟩

theorem History.canceled (h : History ms ds g) (hr : Run g between g')
    (hs : g.state? id = some .canceled) : g'.state? id = some .canceled := by
  induction hr with
  | nil => exact hs
  | snoc hrun hstep ih =>
      obtain ⟨es, hh⟩ := h.run hrun
      obtain ⟨s, hs, rfl | hmoves⟩ := hh.moves hstep ih
      · exact hs
      · cases hmoves

/-- Whatever happens, the state of a task moves along its lifecycle: a task that is new has been
submitted, the store forgets none, and each state is followed by one of those that may come next.
One that waits for input goes on working only after a message that has been accepted for it while
it waited, and it has waited ever since. -/
theorem lifecycle (h₀ : g₀.IsNew) (hr : Run g₀ (past ++ [m]) g) (id : String) :
    (∀ s, m.before.state? id = some s →
      ∃ s', m.after.state? id = some s' ∧ (s' = s ∨ s.Moves s')) ∧
    (∀ s, m.before.state? id = none → m.after.state? id = some s → s = .submitted) ∧
    (m.before.state? id = some .inputRequired → m.after.state? id = some .working →
      ∃ before b between method q peer params task, past = before ++ b :: between ∧
        (method = .tasksSend ∨ method = .tasksSendSubscribe) ∧
        b.Accepts method q peer params task ∧ params.id = id ∧
        ∀ n ∈ b :: between, n.before.state? id = some .inputRequired) := by
  obtain ⟨hrun, hstep, -⟩ := hr.split rfl
  obtain ⟨ds, hh⟩ := hrun.history h₀
  obtain ⟨d, hw, -⟩ := hh.snoc hstep
  refine ⟨fun s hs => hh.moves hstep hs, fun s hnone hs => ?_, fun hwaits hworks => ?_⟩
  · obtain ⟨e, he, rfl⟩ := Option.map_eq_some_iff.mp hs
    exact hw.submitted (Option.map_eq_none_iff.mp hnone) he
  obtain ⟨e, he, hstate⟩ := Option.map_eq_some_iff.mp hwaits
  obtain ⟨e', he', -, hresumes⟩ := hw.moves hh.path.kept he
  have hworks : e'.task.state = .working := by
    have hafter : m.after.store.find? id = some e' := he'
    simpa [state?, hafter] using hworks
  obtain ⟨p, i, u, rest, hi, hid, -, hfirst⟩ := hresumes hstate hworks
  obtain ⟨i, hinv, rfl⟩ := exists_of_work hi
  have hid : i.taskId = id := hid
  obtain ⟨before, b, between, i₀, task, rfl, hb, hk⟩ := hrun.source h₀ hinv
  obtain ⟨-, -, es, folded, hes, hp⟩ := hrun.stems h₀ hb hinv hk
  obtain ⟨rfl, htask⟩ := hfirst hp
  have hid : task.id = id := hp.task.symm.trans hid
  have hkept : emittedIn es i.token = i.queue := hp.kept
  have hrests := hrun.rests h₀ hb hinv hk (by rw [hes.emitted, hkept])
  obtain ⟨hbefore, hstart, hbetween⟩ := hrun.split rfl
  obtain ⟨fs, hfs⟩ := hbefore.history h₀
  obtain ⟨method, q, peer, params, hsends, haccepts, hparams⟩ := hfs.accepts hstart hb
  refine ⟨before, b, between, method, q, peer, params, task, rfl, hsends, haccepts,
    hparams.trans hid, fun n hn => ?_⟩
  rcases List.mem_cons.mp hn with rfl | hn
  · -- the message was accepted for the task as it stood
    obtain ⟨-, _, _, -, haccepts⟩ := haccepts
    obtain ⟨s, store, -, -, hsend⟩ := haccepts.taken
    rcases (TaskStore.send_spec hsend).2 with ⟨-, hc⟩ | ⟨e₁, he₁, -, -, rfl⟩
    · cases htask.symm.trans (TaskStore.create_spec hc).2.1
    · rw [state?, ← hid, ← hparams, he₁]
      exact congrArg some htask
  · rcases hrests n hn with hsame | hcanceled
    · rw [← hid, hsame, htask]
    · -- a task that has been cancelled no longer waits
      obtain ⟨pre, post, rfl⟩ := List.append_of_mem hn
      have hms : before ++ b :: (pre ++ n :: post) = (before ++ b :: pre) ++ n :: post := by simp
      obtain ⟨hpre, hstep, hpost⟩ := hrun.split hms
      obtain ⟨ns, hns⟩ := hpre.history h₀
      have hlater := hns.canceled ((Run.single hstep).append hpost) hcanceled
      rw [hid, hwaits] at hlater
      cases hlater

end Run

theorem lifecycle_resumed : ∃ g past m g', Run g (past ++ [m]) g' ∧
    m.before.state? "t" = some .inputRequired ∧ m.after.state? "t" = some .working ∧
    ∃ b ∈ past, ∃ method q peer params task, b.Accepts method q peer params task ∧
      params.id = "t" ∧ b.before.state? "t" = some .inputRequired := by
  obtain ⟨ms, g, hr, -, h⟩ := Run.exists_of_replay
    ([[.openSession ["a"] "owner" .server {}, .sending (.number 1) "ask(\"more?\")", .control 0],
      List.replicate 6 (.produce 0), List.replicate 3 (.consume 0),
      [.control 0, .sending (.number 2) "nothing", .control 1],
      List.replicate 3 (.produce 1), [.consume 1]].flatten : List Act)
    (Gateway.new {} [])
    (fun ms _ => ms.getLast?.any fun m => m.before.state? "t" = some .inputRequired ∧
      m.after.state? "t" = some .working) (by decide +kernel)
  obtain ⟨m, hm, h⟩ := (Option.any_eq_true ..).mp h
  obtain ⟨hwaits, hworks⟩ := of_decide_eq_true h
  obtain ⟨past, rfl⟩ := List.getLast?_eq_some_iff.mp hm
  obtain ⟨-, -, hresumed⟩ := lifecycle ⟨{}, [], 0, rfl⟩ hr "t"
  obtain ⟨before, b, between, method, q, peer, params, task, rfl, -, haccepts, hid, hall⟩ :=
    hresumed hwaits hworks
  exact ⟨_, _, m, g, hr, hwaits, hworks, b, by simp, method, q, peer, params, task, haccepts, hid,
    hall b List.mem_cons_self⟩

end AgentGateway
