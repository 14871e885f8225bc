import AgentGateway.Proofs.Store
import AgentGateway.Proofs.Workshop

namespace AgentGateway

namespace TaskStore

variable {max : Nat} {timestamp : String} {u : Update} {t : Task} {e : Ending}

@[simp] theorem id_fold : (fold max timestamp u t).id = t.id := by
  cases u with
  | status s =>
      simp only [fold, withStatus]
      split
      · split <;> rfl
      · rfl
  | artifact _ => rfl
  | error _ => rfl

@[simp] theorem id_conclude : (conclude e timestamp t).id = t.id := by
  unfold conclude
  split
  · rfl
  · split <;> rfl

end TaskStore

namespace TaskEntry

variable {max : Nat} {timestamp : String} {u : Update} {e : TaskEntry}

@[simp] theorem token_fold : (e.fold max timestamp u).token = e.token := by
  unfold fold
  split <;> rfl

@[simp] theorem id_fold : (e.fold max timestamp u).task.id = e.task.id := by
  unfold fold
  split
  · rfl
  · exact TaskStore.id_fold

end TaskEntry

def Deed.Fits (ds : List Deed) (d : Deed) : Prop :=
  ∀ p s k t, d = .began p (some s) k t → ds.flatMap (Deed.messages p) = []

namespace Workshop

open Function (update)

variable {w w' : Workshop} {d : Deed} {id : String} {k : Token} {p : ProcessId} {i : Invocation}

def slot (id : String) (w : Workshop) : Option Token := (w.store.find? id).bind TaskEntry.token

structure Sound (w : Workshop) : Prop where
  keyed : ∀ id e, w.store.find? id = some e → e.task.id = id
  signalled_lt : ∀ k ∈ w.signalled, k < w.nextToken
  watch_lt : ∀ p k, w.watch p = some k → k < w.nextToken
  slot_lt : ∀ id k, w.slot id = some k → k < w.nextToken
  slot_inj : ∀ id id' k, w.slot id = some k → w.slot id' = some k → id = id'
  unwatched : ∀ id k p, w.slot id = some k → w.watch p ≠ some k
  work_slot : ∀ p i, w.work p = some i → w.slot i.taskId = some i.token
  apart : ∀ p q i j, w.work p = some i → w.work q = some j → i.token = j.token → p = q

structure IsNew (w : Workshop) : Prop where
  entries : w.store.entries = []
  signalled : w.signalled = []
  work : ∀ p, w.work p = none
  watch : ∀ p, w.watch p = none

theorem IsNew.slot (h : w.IsNew) : w.slot id = none := by
  simp [Workshop.slot, TaskStore.find?, h.entries]

theorem IsNew.sound (h : w.IsNew) : w.Sound where
  keyed id e he := by simp [TaskStore.find?, h.entries] at he
  signalled_lt k hk := by simp [h.signalled] at hk
  watch_lt p k hk := by simp [h.watch] at hk
  slot_lt id k hk := by simp [h.slot] at hk
  slot_inj id id' k hk := by simp [h.slot] at hk
  unwatched id k p hk := by simp [h.slot] at hk
  work_slot p i hi := by simp [h.work] at hi
  apart p q i j hi := by simp [h.work] at hi

theorem Sound.shrink (h : w.Sound) (hkey : ∀ id e, w'.store.find? id = some e → e.task.id = id)
    (hnext : w'.nextToken = w.nextToken) (hsig : ∀ k ∈ w'.signalled, k < w.nextToken)
    (hwatch : ∀ p k, w'.watch p = some k → w.watch p = some k)
    (hslot : ∀ id k, w'.slot id = some k → w.slot id = some k)
    (hwork : ∀ p j, w'.work p = some j → ∃ i, w.work p = some i ∧ i.token = j.token ∧
      i.taskId = j.taskId ∧ w'.slot j.taskId = w.slot j.taskId) : w'.Sound where
  keyed := hkey
  signalled_lt k hk := hnext ▸ hsig k hk
  watch_lt p k hk := hnext ▸ h.watch_lt p k (hwatch p k hk)
  slot_lt id k hk := hnext ▸ h.slot_lt id k (hslot id k hk)
  slot_inj id id' k hk hk' := h.slot_inj id id' k (hslot id k hk) (hslot id' k hk')
  unwatched id k p hk hp := h.unwatched id k p (hslot id k hk) (hwatch p k hp)
  work_slot p j hj := by
    obtain ⟨i, hi, htok, hid, hsame⟩ := hwork p j hj
    rw [hsame, ← hid, ← htok]
    exact h.work_slot p i hi
  apart p q j j' hj hj' heq := by
    obtain ⟨i, hi, htok, -, -⟩ := hwork p j hj
    obtain ⟨i', hi', htok', -, -⟩ := hwork q j' hj'
    exact h.apart p q i i' hi hi' (htok.trans (heq.trans htok'.symm))

theorem work_assign {q : ProcessId} {o : Option Invocation} :
    (w.assign p o).work q = if q = p then o else w.work q := by
  simp [assign, Function.update_apply]

theorem store_signal : (w.signal k).store = w.store := by
  unfold signal
  split <;> rfl

theorem watch_signal : (w.signal k).watch = w.watch := by
  unfold signal
  split <;> rfl

theorem work_signal : (w.signal k).work = w.work := by
  unfold signal
  split <;> rfl

theorem nextToken_signal : (w.signal k).nextToken = w.nextToken := by
  unfold signal
  split <;> rfl

theorem mem_signal {k' : Token} : k' ∈ (w.signal k).signalled ↔ k' = k ∨ k' ∈ w.signalled := by
  unfold signal
  split
  · rename_i h
    constructor
    · exact .inr
    · rintro (rfl | h')
      · exact h
      · exact h'
  · simp

theorem Sound.signal (h : w.Sound) (hk : k < w.nextToken) : (w.signal k).Sound := by
  refine h.shrink ?_ nextToken_signal (fun k' hk' => ?_) ?_ ?_ ?_
  · rw [store_signal]
    exact h.keyed
  · rcases mem_signal.mp hk' with rfl | hk'
    · exact hk
    · exact h.signalled_lt k' hk'
  · simp [watch_signal]
  · simp [slot, store_signal]
  · intro p j hj
    rw [work_signal] at hj
    exact ⟨j, hj, rfl, rfl, by rw [slot, store_signal, slot]⟩

theorem Sound.assign (h : w.Sound) (hi : w.work p = some i) {j : Invocation}
    (hk : i.token = j.token) (hid : i.taskId = j.taskId) : (w.assign p (some j)).Sound := by
  refine h.shrink h.keyed rfl h.signalled_lt (fun _ _ => id) (fun _ _ => id) fun q j' hj' => ?_
  rw [work_assign] at hj'
  split at hj'
  · rename_i hq
    subst hq
    cases hj'
    exact ⟨i, hi, hk, hid, rfl⟩
  · exact ⟨j', hj', rfl, rfl, rfl⟩

theorem Sound.withStore (h : w.Sound) {store : TaskStore}
    (hkey : ∀ id e, store.find? id = some e → e.task.id = id)
    (hslot : ∀ id, (store.find? id).bind TaskEntry.token = w.slot id) :
    { w with store }.Sound := by
  refine h.shrink hkey rfl h.signalled_lt (fun _ _ => id) ?_ fun p j hj => ?_
  · intro id k hk
    rwa [slot, hslot id] at hk
  · exact ⟨j, hj, rfl, rfl, hslot j.taskId⟩

theorem slot_update {u : Update} {timestamp : String} {id' : String} :
    ((w.store.update id u timestamp).find? id').bind TaskEntry.token = w.slot id' := by
  rw [TaskStore.find?_update, slot]
  split
  · rename_i h
    rw [h]
    cases w.store.find? id <;> simp
  · rfl

theorem keyed_update (h : w.Sound) {u : Update} {timestamp : String} {id' : String} {e : TaskEntry}
    (he : (w.store.update id u timestamp).find? id' = some e) : e.task.id = id' := by
  rw [TaskStore.find?_update] at he
  split at he
  · rename_i hid
    obtain ⟨e', he', rfl⟩ := Option.map_eq_some_iff.mp he
    rw [TaskEntry.id_fold, hid]
    exact h.keyed _ _ he'
  · exact h.keyed _ _ he

theorem Sound.id_of_send (h : w.Sound) {params : TaskSendParams}
    {headers : List (String × String)} {timestamp : String} {task : Task} {store : TaskStore}
    (hsend : w.store.send params headers k timestamp = .ok (task, store)) :
    task.id = params.id := by
  obtain ⟨-, ⟨-, hc⟩ | ⟨e, he, -, -, rfl⟩⟩ := TaskStore.send_spec hsend
  · exact (TaskStore.create_spec hc).1
  · exact h.keyed _ _ he

theorem Sound.began (h : w.Sound) {params : TaskSendParams} {headers : List (String × String)}
    {timestamp : String} {task : Task} {store : TaskStore} (hi : i.taskId = task.id)
    (hk : i.token = w.nextToken)
    (hsend : w.store.send params headers w.nextToken timestamp = .ok (task, store)) :
    { w with
      store, nextToken := w.nextToken + 1, work := update w.work p (some i) }.Sound := by
  obtain ⟨hfind, hold⟩ := TaskStore.send_spec hsend
  have hid := h.id_of_send hsend
  have hfree : w.slot params.id = none := by
    rcases hold with ⟨hnone, -⟩ | ⟨e, he, htok, -⟩
    · simp [slot, hnone]
    · simp [slot, he, htok]
  have hslot (id : String) : (store.find? id).bind TaskEntry.token =
      if id = params.id then some w.nextToken else w.slot id := by
    rw [hfind]
    split <;> rfl
  have hnew {id : String} {k : Token} (hs : w.slot id = some k) : k ≠ w.nextToken :=
    Nat.ne_of_lt (h.slot_lt id k hs)
  have hwork {q : ProcessId} {j : Invocation} (hj : update w.work p (some i) q = some j) :
      (q = p ∧ j = i) ∨ w.work q = some j := by
    rw [Function.update_apply] at hj
    split at hj
    · rename_i hq
      exact .inl ⟨hq, (Option.some.inj hj).symm⟩
    · exact .inr hj
  have hold_token {q : ProcessId} {j : Invocation} (hj : w.work q = some j) :
      j.token ≠ w.nextToken := hnew (h.work_slot q j hj)
  refine ⟨?_, ?_, ?_, ?_, ?_, ?_, ?_, ?_⟩
  · intro id e he
    rw [hfind] at he
    split at he
    · rename_i heq
      cases he
      exact hid.trans heq.symm
    · exact h.keyed id e he
  · exact fun k hk => Nat.lt_succ_of_lt (h.signalled_lt k hk)
  · exact fun p k hk => Nat.lt_succ_of_lt (h.watch_lt p k hk)
  · intro id k hk
    rw [slot, hslot] at hk
    split at hk
    · cases hk
      exact Nat.lt_succ_self _
    · exact Nat.lt_succ_of_lt (h.slot_lt id k hk)
  · intro id id' k hk hk'
    rw [slot, hslot] at hk hk'
    split at hk <;> split at hk'
    · rename_i h₁ h₂
      exact h₁.trans h₂.symm
    · cases hk
      exact absurd rfl (hnew hk')
    · cases hk'
      exact absurd rfl (hnew hk)
    · exact h.slot_inj id id' k hk hk'
  · intro id k q hk hq
    rw [slot, hslot] at hk
    split at hk
    · cases hk
      exact absurd (h.watch_lt q _ hq) (Nat.lt_irrefl _)
    · exact h.unwatched id k q hk hq
  · intro q j hj
    rw [slot, hslot]
    rcases hwork hj with ⟨-, rfl⟩ | hj
    · rw [if_pos (hi.trans hid), hk]
    · have hs := h.work_slot q j hj
      have hne : j.taskId ≠ params.id := by
        intro heq
        simp [heq, hfree] at hs
      rw [if_neg hne, hs]
  · intro q q' j j' hj hj' heq
    rcases hwork hj with ⟨rfl, rfl⟩ | ho <;> rcases hwork hj' with ⟨rfl, rfl⟩ | ho'
    · rfl
    · exact absurd (heq.symm.trans hk) (hold_token ho')
    · exact absurd (heq.trans hk) (hold_token ho)
    · exact h.apart q q' j j' ho ho' heq

theorem Sound.other (h : w.Sound) {q : ProcessId} {j : Invocation} (hi : w.work p = some i)
    (hj : w.work q = some j) (hq : q ≠ p) : j.token ≠ i.token ∧ j.taskId ≠ i.taskId := by
  have htok : j.token ≠ i.token := fun heq => hq (h.apart q p j i hj hi heq)
  refine ⟨htok, fun heq => htok ?_⟩
  have hs := h.work_slot q j hj
  rw [heq, h.work_slot p i hi] at hs
  exact (Option.some.inj hs).symm

theorem Sound.token_lt (h : w.Sound) (hi : w.work p = some i) : i.token < w.nextToken :=
  h.slot_lt _ _ (h.work_slot p i hi)

theorem Sound.step (h : w.Sound) (hstep : Step w d w') : w'.Sound := by
  cases hstep with
  | rest => exact h
  | watched p hp =>
      refine ⟨h.keyed, fun k hk => Nat.lt_succ_of_lt (h.signalled_lt k hk), fun q k hk => ?_,
        fun id k hk => Nat.lt_succ_of_lt (h.slot_lt id k hk), h.slot_inj, fun id k q hk hq => ?_,
        h.work_slot, h.apart⟩
      · dsimp only at hk
        rw [Function.update_apply] at hk
        split at hk
        · cases hk
          exact Nat.lt_succ_self _
        · exact Nat.lt_succ_of_lt (h.watch_lt q k hk)
      · dsimp only at hq
        rw [Function.update_apply] at hq
        split at hq
        · cases hq
          exact absurd (h.slot_lt id _ hk) (Nat.lt_irrefl _)
        · exact h.unwatched id k q hk hq
  | halted hp => exact h.signal (h.watch_lt _ _ hp)
  | dismissed p =>
      refine h.shrink h.keyed rfl h.signalled_lt (fun q k hk => ?_) (fun _ _ => id) fun q j hj => ?_
      · dsimp only at hk
        rw [Function.update_apply] at hk
        split at hk
        · cases hk
        · exact hk
      · have hj : (w.assign p none).work q = some j := hj
        rw [work_assign] at hj
        split at hj
        · cases hj
        · exact ⟨j, hj, rfl, rfl, rfl⟩
  | began _ _ hsend => exact h.began rfl rfl hsend
  | produced hi _ _ _ => exact h.assign hi rfl rfl
  | @took p i u rest timestamp hi _ _ =>
      have hassign : (w.assign p (some { i with queue := rest, consumer := i.onward u })).Sound :=
        h.assign hi rfl rfl
      exact hassign.withStore (fun id e he => keyed_update h he) fun id => slot_update
  | forwarded hi _ => exact h.assign hi rfl rfl
  | waited hi _ _ => exact h.assign hi rfl rfl
  | @lost p i d hi _ _ =>
      have hi' : (w.signal i.token).work p = some i := by rw [work_signal, hi]
      exact (h.signal (h.token_lt hi)).assign hi' rfl rfl
  | drained hi _ _ _ => exact h.assign hi rfl rfl
  | @concluded p i ending timestamp hi _ =>
      have hslot (id : String) : ((w.store.finish i.taskId ending timestamp).2.find? id).bind
          TaskEntry.token = if id = i.taskId then none else w.slot id := by
        rw [TaskStore.find?_finish]
        split
        · cases w.store.find? i.taskId <;> rfl
        · rfl
      refine h.shrink (fun id e he => ?_) rfl h.signalled_lt (fun _ _ => id) (fun id k hk => ?_)
        fun q j hj => ?_
      · dsimp only at he
        rw [TaskStore.find?_finish] at he
        split at he
        · rename_i hid
          obtain ⟨e', he', rfl⟩ := Option.map_eq_some_iff.mp he
          rw [TaskEntry.finish, TaskStore.id_conclude, hid]
          exact h.keyed _ _ he'
        · exact h.keyed _ _ he
      · rw [slot, hslot] at hk
        split at hk
        · cases hk
        · exact hk
      · have hj : (w.assign p none).work q = some j := hj
        rw [work_assign] at hj
        split at hj
        · cases hj
        · rename_i hq
          refine ⟨j, hj, rfl, rfl, ?_⟩
          rw [slot, hslot, if_neg (h.other hi hj hq).2]
  | @cancelled id timestamp task token store hc =>
      obtain ⟨e, he, -, rfl, hfind⟩ := TaskStore.cancel_spec hc
      have hsignal : (e.token.elim w fun k => w.signal k).Sound := by
        cases htok : e.token with
        | none => exact h
        | some k => exact h.signal (h.slot_lt id k (by simp [slot, he, htok]))
      have hstore : (e.token.elim w fun k => w.signal k).store = w.store := by
        cases e.token with
        | none => rfl
        | some k => exact store_signal
      refine hsignal.withStore (fun q e' he' => ?_) fun q => ?_
      · rw [hfind] at he'
        split at he'
        · rename_i hq
          cases he'
          rw [hq]
          exact h.keyed id e he
        · exact h.keyed q e' he'
      · rw [hfind, slot, hstore]
        split
        · rename_i hq
          rw [hq, he]
          rfl
        · rfl

inductive Path : List Deed → Workshop → Prop
  | start {w : Workshop} : w.IsNew → Path [] w
  | snoc {ds : List Deed} {w w' : Workshop} {d : Deed} :
      Path ds w → Step w d w' → Deed.Fits ds d → Path (ds ++ [d]) w'

theorem Path.sound {ds : List Deed} (h : Path ds w) : w.Sound := by
  induction h with
  | start h => exact h.sound
  | snoc _ hstep _ ih => exact ih.step hstep

end Workshop

end AgentGateway
