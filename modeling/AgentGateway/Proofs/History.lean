import AgentGateway.Proofs.Pending
import AgentGateway.Proofs.Posting
import AgentGateway.Proofs.Progress

namespace AgentGateway

namespace Workshop

open Function (update)

variable {w w' : Workshop} {d : Deed} {p : ProcessId} {i j : Invocation}

theorem Step.work (h : Step w d w') (hj : w'.work p = some j) :
    (∃ i, w.work p = some i ∧ i.taskId = j.taskId ∧ i.token = j.token ∧
      i.subscriber = j.subscriber) ∨
    w.work p = none ∧ ∃ t, d = .began p j.subscriber j.token t ∧ j.token = w.nextToken := by
  have hassign {w₁ : Workshop} {q : ProcessId} {o : Option Invocation}
      (hj : (w₁.assign q o).work p = some j) (hw : w₁.work = w.work)
      (ho : ∀ j, o = some j → ∃ i, w.work q = some i ∧ i.taskId = j.taskId ∧
        i.token = j.token ∧ i.subscriber = j.subscriber) :
      ∃ i, w.work p = some i ∧ i.taskId = j.taskId ∧ i.token = j.token ∧
        i.subscriber = j.subscriber := by
    rw [work_assign] at hj
    split at hj
    · rename_i hq
      exact hq ▸ ho j hj
    · exact ⟨j, hw ▸ hj, rfl, rfl, rfl⟩
  cases h with
  | rest | watched p hp => exact .inl ⟨j, hj, rfl, rfl, rfl⟩
  | halted hp =>
      rw [work_signal] at hj
      exact .inl ⟨j, hj, rfl, rfl, rfl⟩
  | dismissed q => exact .inl (hassign hj rfl (by simp))
  | @began q params headers timestamp delay subscriber task store hq hw hsend =>
      have hj : update w.work q _ p = some j := hj
      rw [Function.update_apply] at hj
      split at hj
      · rename_i heq
        cases hj
        exact .inr ⟨heq ▸ hq, task, by rw [heq]; rfl, rfl⟩
      · exact .inl ⟨j, hj, rfl, rfl, rfl⟩
  | produced hi _ _ _ =>
      refine .inl (hassign hj rfl fun j hj => ?_)
      cases hj
      exact ⟨_, hi, rfl, rfl, rfl⟩
  | took hi _ _ =>
      refine .inl (hassign hj rfl fun j hj => ?_)
      cases hj
      exact ⟨_, hi, rfl, rfl, rfl⟩
  | forwarded hi _ =>
      refine .inl (hassign hj rfl fun j hj => ?_)
      cases hj
      exact ⟨_, hi, rfl, rfl, rfl⟩
  | waited hi _ _ =>
      refine .inl (hassign hj rfl fun j hj => ?_)
      cases hj
      exact ⟨_, hi, rfl, rfl, rfl⟩
  | lost hi _ _ =>
      refine .inl (hassign hj work_signal fun j hj => ?_)
      cases hj
      exact ⟨_, hi, rfl, rfl, rfl⟩
  | drained hi _ _ _ =>
      refine .inl (hassign hj rfl fun j hj => ?_)
      cases hj
      exact ⟨_, hi, rfl, rfl, rfl⟩
  | concluded hi _ => exact .inl (hassign hj rfl (by simp))
  | @cancelled id timestamp task token store hc =>
      have hwork : (token.elim w fun k => w.signal k).work = w.work := by
        cases token with
        | none => rfl
        | some k => exact work_signal
      have hj : (token.elim w fun k => w.signal k).work p = some j := hj
      rw [hwork] at hj
      exact .inl ⟨j, hj, rfl, rfl, rfl⟩

theorem Step.messages (h : Step w d w') (hp : w.work p = none) : d.messages p = [] := by
  cases h with
  | @forwarded q i d hi hc =>
      have hq : q ≠ p := by
        rintro rfl
        simp [hp] at hi
      split
      · simp [Deed.messages, hq]
      · rfl
  | _ => rfl

theorem Step.entry (h : Step w d w') (hs : w.Sound) {k : Token} {subscriber : Option Subscriber}
    {t : Task} (hd : d = .began p subscriber k t) :
    k = w.nextToken ∧ w'.store.find? t.id = some ⟨t, some k⟩ := by
  cases h with
  | began _ _ hsend =>
      cases hd
      obtain ⟨hfind, -⟩ := TaskStore.send_spec hsend
      exact ⟨rfl, (hfind _).trans (if_pos (hs.id_of_send hsend))⟩
  | forwarded _ _ => split at hd <;> cases hd
  | _ => cases hd

/-- What a step leaves of what the store has under the id of a task. -/
inductive Leaves (w : Workshop) (id : String) : Deed → Option TaskEntry → Prop
  | kept {d : Deed} : Leaves w id d (w.store.find? id)
  | created {p : ProcessId} {subscriber k t} : w.store.find? id = none → t.state = .submitted →
      Leaves w id (.began p subscriber k t) (some ⟨t, some k⟩)
  | resumed {p : ProcessId} {subscriber k t e} :
      w.store.find? id = some e → t.state = e.task.state →
      Leaves w id (.began p subscriber k t) (some ⟨t, some k⟩)
  | folded {p : ProcessId} {i : Invocation} {u rest timestamp} :
      w.work p = some i → i.taskId = id → i.queue = u :: rest →
      Leaves w id .silent
        ((w.store.find? id).map (TaskEntry.fold w.store.maxHistory timestamp u))
  | finished {p : ProcessId} {i : Invocation} {ending timestamp} :
      w.work p = some i → i.taskId = id → i.ending? = some ending →
      Leaves w id (.concluded p) ((w.store.find? id).map (TaskEntry.finish ending timestamp))
  | cancelled {e timestamp} : w.store.find? id = some e → e.task.state.isTerminal = false →
      Leaves w id .silent (some (e.cancel timestamp))

theorem Step.leaves (h : Step w d w') (id : String) : w.Leaves id d (w'.store.find? id) := by
  cases h with
  | rest | watched _ _ | dismissed _ | produced _ _ _ _ | forwarded _ _ | waited _ _ _
  | drained _ _ _ _ => exact .kept
  | halted _ =>
      rw [store_signal]
      exact .kept
  | @lost p i =>
      change w.Leaves id _ ((w.signal i.token).store.find? id)
      rw [store_signal]
      exact .kept
  | began _ _ hsend =>
      obtain ⟨hfind, hold⟩ := TaskStore.send_spec hsend
      dsimp only
      rw [hfind]
      split
      · rename_i hid
        rw [← hid] at hold
        rcases hold with ⟨hnone, hcreate⟩ | ⟨e, he, -, -, rfl⟩
        · exact .created hnone (TaskStore.create_spec hcreate).2.1
        · exact .resumed he rfl
      · exact .kept
  | took hi _ hq =>
      dsimp only
      rw [TaskStore.find?_update]
      split
      · rename_i hid
        rw [← hid]
        exact .folded hi hid.symm hq
      · exact .kept
  | concluded hi hending =>
      dsimp only
      rw [TaskStore.find?_finish]
      split
      · rename_i hid
        rw [← hid]
        exact .finished hi hid.symm hending
      · exact .kept
  | cancelled hc =>
      obtain ⟨e, he, hopen, -, hfind⟩ := TaskStore.cancel_spec hc
      dsimp only
      rw [hfind]
      split
      · rename_i hid
        exact .cancelled (hid ▸ he) hopen
      · exact .kept

end Workshop

def Moment.Begins (k : Token) (t : Task) (m : Moment) : Prop :=
  m.before.nextToken = k ∧ m.after.store.find? t.id = some ⟨t, some k⟩

namespace Gateway

variable {g g' : Gateway} {p : ProcessId} {r : SessionRef} {a : Act} {i : Invocation}

theorem lt_of_perform (hn : g.Numbered) (h : g.perform a = some g') (hr : r < g.sessions.length) :
    r < g'.sessions.length := by
  obtain ⟨es, hp, -⟩ := posted_perform hn h
  have hs : g.session? r = some g.sessions[r] := List.getElem?_eq_getElem hr
  obtain ⟨s', hs', -⟩ := hp.ages r _ hs
  exact lt_of_session? hs'

theorem isOpen_of_perform (hn : g.Numbered) (h : g.perform a = some g')
    (hr : r < g.sessions.length) (ho : g'.IsOpen r) : g.IsOpen r := by
  obtain ⟨es, hp, -⟩ := posted_perform hn h
  have hs : g.session? r = some g.sessions[r] := List.getElem?_eq_getElem hr
  obtain ⟨s', hs', hage⟩ := hp.ages r _ hs
  obtain ⟨s₁, hs₁, ha, hrecv⟩ := ho
  obtain rfl : s' = s₁ := Option.some.inj (hs'.symm.trans hs₁)
  exact ⟨_, hs, hage.attached ha, hage.receiving hrecv⟩

theorem sent_absent (h : g.perform a = some g') (hp : g.process? p = none) :
    Moment.sent p r ⟨g, a, g'⟩ = [] := by
  have hi : g.invocation? p = none := by simp [invocation?, hp]
  cases a with
  | consume q =>
      have hq : q ≠ p := by
        rintro rfl
        obtain ⟨i, hi', -⟩ := Option.bind_eq_some_iff.mp h
        simp [hi] at hi'
      simp [Moment.sent, hq]
  | control q =>
      have hq : q ≠ p := by
        rintro rfl
        obtain ⟨x, hx, -⟩ := Option.bind_eq_some_iff.mp h
        simp [hp] at hx
      simp [Moment.sent, hq]
  | _ => rfl

theorem exists_of_work {j : Invocation} (h : g.workshop.work p = some j) :
    ∃ i, g.invocation? p = some i ∧ i.plain = j := Option.map_eq_some_iff.mp h

theorem IsNew.workshop (h : g.IsNew) : g.workshop.IsNew := by
  obtain ⟨settings, tools, epoch, rfl⟩ := h
  exact ⟨rfl, rfl, fun _ => rfl, fun _ => rfl⟩

end Gateway

theorem Run.opened {g₁ g : Gateway} {ms : List Moment} {r : SessionRef} (hn : g₁.Numbered)
    (hr : Run g₁ ms g) (hl : r < g₁.sessions.length) : r < g.sessions.length := by
  induction hr with
  | nil => exact hl
  | snoc hrun hstep ih => exact Gateway.lt_of_perform (hrun.numbered hn) hstep ih

/-- A run, and the deeds that are done in it. -/
structure History (ms : List Moment) (ds : List Deed) (g : Gateway) : Prop where
  numbered : g.Numbered
  path : Workshop.Path ds g.workshop
  emitted : ∀ k, ms.flatMap (Moment.emitted k) = emittedIn ds k
  sent : ∀ p i s, g.invocation? p = some i → i.subscriber = some s →
    ms.flatMap (Moment.sent p s.session) = toldIn ds p
  unused : ∀ p, g.nextProcess ≤ p → (∀ r, ms.flatMap (Moment.sent p r) = []) ∧ toldIn ds p = []
  opened : ∀ p i s, g.invocation? p = some i → i.subscriber = some s →
    s.session < g.sessions.length
  lost : ∀ p i s, g.invocation? p = some i → i.subscriber = some s → .lost p i.token ∈ ds →
    ¬ g.IsOpen s.session
  begun : ∀ p subscriber k t, .began p subscriber k t ∈ ds → ∃ m ∈ ms, m.Begins k t

namespace History

open Gateway

variable {g g' : Gateway} {ms : List Moment} {ds : List Deed} {a : Act}

theorem start (h : g.IsNew) : History [] [] g where
  numbered := h.numbered
  path := .start h.workshop
  emitted _ := rfl
  sent p i s hi := by
    have hnone : g.workshop.work p = none := h.workshop.work p
    simp [workshop, hi] at hnone
  unused p _ := ⟨fun _ => rfl, rfl⟩
  opened p i s hi := by
    have hnone : g.workshop.work p = none := h.workshop.work p
    simp [workshop, hi] at hnone
  lost p i s _ _ hl := by cases hl
  begun p subscriber k t hb := by cases hb

theorem snoc (h : History ms ds g) (hstep : g.perform a = some g') :
    ∃ d, Workshop.Step g.workshop d g'.workshop ∧
      History (ms ++ [⟨g, a, g'⟩]) (ds ++ [d]) g' := by
  obtain ⟨hs, d, hw, hd⟩ := simulated_perform h.numbered hstep
  have habsent {p : ProcessId} (hp : g.nextProcess ≤ p) : g.workshop.work p = none := by
    simp [workshop, invocation?, h.numbered p hp]
  -- an invocation is one from before, or one that begins now
  have hinv {p : ProcessId} {j : Invocation} {s : Subscriber} (hj : g'.invocation? p = some j)
      (hsub : j.subscriber = some s) :
      (∃ i, g.invocation? p = some i ∧ i.token = j.token ∧ i.subscriber = some s) ∨
        (g.nextProcess ≤ p ∧ s.session < g.sessions.length ∧ j.token = g.nextToken ∧
          ∃ k t, d = .began p (some s) k t) := by
    rcases hw.work (work_eq hj) with ⟨i, hi, -, htok, his⟩ | ⟨-, t, hbegan, htok⟩
    · obtain ⟨i₀, hi₀, rfl⟩ := exists_of_work hi
      exact .inl ⟨i₀, hi₀, htok, his.trans hsub⟩
    · have hbegan : d = .began p (some s) j.token t := hsub ▸ hbegan
      obtain ⟨hp, hr⟩ := hd.began p s _ t hbegan
      exact .inr ⟨hp, hr, htok, _, t, hbegan⟩
  have hfit : Deed.Fits ds d := fun p s k t hbegan =>
    (h.unused p (hd.began p s k t hbegan).1).2
  refine ⟨d, hw, ?_⟩
  constructor
  case numbered => exact hs.numbered
  case path => exact h.path.snoc hw hfit
  case emitted =>
    intro k
    rw [List.flatMap_append, h.emitted, emittedIn_snoc, ← hd.emitted k]
    simp
  case sent =>
    intro p j s hj hsub
    rw [List.flatMap_append, toldIn_snoc]
    rcases hinv hj hsub with ⟨i, hi, -, his⟩ | ⟨hp, -, -, -⟩
    · rw [h.sent p i s hi his, ← hd.sent p i s hi his]
      simp
    · obtain ⟨hsent, htold⟩ := h.unused p hp
      rw [hsent, htold, hw.messages (habsent hp)]
      simp [sent_absent hstep (h.numbered p hp)]
  case unused =>
    intro p hp
    have hp := Nat.le_trans hs.grown hp
    obtain ⟨hsent, htold⟩ := h.unused p hp
    refine ⟨fun r => ?_, ?_⟩
    · simp [hsent r, sent_absent hstep (h.numbered p hp)]
    · rw [toldIn_snoc, htold, hw.messages (habsent hp)]
      rfl
  case opened =>
    intro p j s hj hsub
    rcases hinv hj hsub with ⟨i, hi, -, his⟩ | ⟨-, hr, -, -⟩
    · exact lt_of_perform h.numbered hstep (h.opened p i s hi his)
    · exact lt_of_perform h.numbered hstep hr
  case lost =>
    intro p j s hj hsub hl ho
    rcases hinv hj hsub with ⟨i, hi, htok, his⟩ | ⟨hp, hr, htok, k, t, hbegan⟩
    · have hopen := isOpen_of_perform h.numbered hstep (h.opened p i s hi his) ho
      rcases List.mem_append.mp hl with hl | hl
      · exact h.lost p i s hi his (htok ▸ hl) hopen
      · exact hd.lost p j.token i s (List.mem_singleton.mp hl).symm hi his hopen
    · rcases List.mem_append.mp hl with hl | hl
      · exact (h.path.kept.fresh j.token (Nat.le_of_eq htok.symm)).2 p hl
      · cases hbegan.symm.trans (List.mem_singleton.mp hl).symm
  case begun =>
    intro p subscriber k t hb
    rcases List.mem_append.mp hb with hb | hb
    · obtain ⟨m, hm, hbegins⟩ := h.begun p subscriber k t hb
      exact ⟨m, by simp [hm], hbegins⟩
    · obtain ⟨hk, hent⟩ := hw.entry h.path.sound (List.mem_singleton.mp hb).symm
      exact ⟨⟨g, a, g'⟩, by simp, hk.symm, hent⟩

end History

theorem Run.history {g₀ g : Gateway} {ms : List Moment} (h₀ : g₀.IsNew) (h : Run g₀ ms g) :
    ∃ ds, History ms ds g := by
  induction h with
  | nil => exact ⟨[], .start h₀⟩
  | snoc _ hstep ih =>
      obtain ⟨ds, hds⟩ := ih
      obtain ⟨d, -, hd⟩ := hds.snoc hstep
      exact ⟨ds ++ [d], hd⟩

end AgentGateway
