import AgentGateway.Invocation.Solo
import AgentGateway.Proofs.Verdict

namespace AgentGateway.Solo

inductive Event where
  | produced (u : Option Update)
  | took
  | passed (d : Nanos)
  | cancelled
  | left

namespace Event

def emissions : Event → List Update
  | .produced u => u.toList
  | _ => []

def isProduced : Event → Bool
  | .produced _ => true
  | _ => false

end Event

def emitted (es : List Event) : List Update := es.flatMap Event.emissions

/-- That nobody stops the invocation and the reader stays. -/
def Undisturbed (es : List Event) : Prop := .cancelled ∉ es ∧ .left ∉ es

def around (timestamp : String) (s : Solo) : Surroundings :=
  { now := s.now, timestamp, cancelled := s.cancelled
    hasRoom := s.queue.length < s.capacity, hasTaker := s.reading }

inductive Step (s : Solo) : Event → Solo → Prop
  | produced {timestamp : String} {u : Option Update} {producer : Producer} :
      s.producer.advance? s.taskId (s.around timestamp) = some (u, producer) →
      Step s (.produced u) { s with producer, queue := s.queue ++ u.toList }
  | took {u : Update} {rest : List Update} : s.reading = true → s.queue = u :: rest →
      Step s .took { s with queue := rest, read := s.read ++ [(s.now, u)] }
  | passed (d : Nanos) : Step s (.passed d) { s with now := s.now + d }
  | cancelled : Step s .cancelled { s with cancelled := true }
  | left : Step s .left { s with reading := false, queue := [] }

inductive Course (s : Solo) : List Event → Solo → Prop
  | nil : Course s [] s
  | snoc {es : List Event} {e : Event} {mid s' : Solo} : Course s es mid → Step mid e s' →
      Course s (es ++ [e]) s'

def fresh (chunkDelay : Nanos) (capacity : Nat) (task : Task) (script : SoloScript) : Solo :=
  { taskId := task.id, script, producer := .start chunkDelay task, capacity }

def HasEnded (s : Solo) : Prop := s.producer.ending?.isSome = true

variable {s s' s'' : Solo} {e : Event} {es fs : List Event} {task : Task}

@[simp] theorem emitted_append : emitted (es ++ fs) = emitted es ++ emitted fs :=
  List.flatMap_append

@[simp] theorem emitted_cons : emitted (e :: es) = e.emissions ++ emitted es := rfl

theorem Undisturbed.append (h : Undisturbed es) (k : Undisturbed fs) : Undisturbed (es ++ fs) :=
  ⟨by simp [h.1, k.1], by simp [h.2, k.2]⟩

namespace Course

theorem single (h : Step s e s') : Course s [e] s' := nil.snoc h

theorem append (h : Course s es s') (k : Course s' fs s'') : Course s (es ++ fs) s'' := by
  induction k with
  | nil => simpa using h
  | snoc _ hstep ih =>
      rw [← List.append_assoc]
      exact ih.snoc hstep

theorem of_snoc (h : Course s (es ++ [e]) s') : ∃ mid, Course s es mid ∧ Step mid e s' := by
  generalize hes : es ++ [e] = es' at h
  cases h with
  | nil => simp at hes
  | snoc hrun hstep =>
      obtain ⟨rfl, rfl⟩ := List.append_inj' hes rfl |>.imp_right List.singleton_inj.mp
      exact ⟨_, hrun, hstep⟩

theorem split (h : Course s (es ++ fs) s') : ∃ mid, Course s es mid ∧ Course mid fs s' := by
  induction fs using List.reverseRecOn generalizing s' with
  | nil => exact ⟨s', by simpa using h, .nil⟩
  | append_singleton fs e ih =>
      rw [← List.append_assoc] at h
      obtain ⟨mid, hrun, hstep⟩ := h.of_snoc
      obtain ⟨start, hes, hfs⟩ := ih hrun
      exact ⟨start, hes, hfs.snoc hstep⟩

end Course

theorem Step.capacity (h : Step s e s') : s'.capacity = s.capacity := by cases h <;> rfl

theorem Step.cancelled_mono (h : Step s e s') (hc : s.cancelled = true) : s'.cancelled = true := by
  cases h with
  | cancelled => rfl
  | produced _ | took _ _ | passed _ | left => exact hc

theorem Step.quiet (h : Step s e s') (hc : s.cancelled = true) : e.emissions = [] := by
  cases h with
  | produced hadv =>
      cases Producer.moves_of_advance? hadv with
      | put _ hfree _ _ =>
          rw [around, hc] at hfree
          cases hfree
      | halted | deserted | woke | finished | unrolled | checked | paused | offered => rfl
  | took _ _ | passed _ | cancelled | left => rfl

theorem Course.capacity (h : Course s es s') : s'.capacity = s.capacity := by
  induction h with
  | nil => rfl
  | snoc _ hstep ih => exact hstep.capacity.trans ih

theorem Course.quiet (h : Course s es s') (hc : s.cancelled = true) :
    s'.cancelled = true ∧ emitted es = [] := by
  induction h with
  | nil => exact ⟨hc, rfl⟩
  | snoc _ hstep ih =>
      refine ⟨hstep.cancelled_mono ih.1, ?_⟩
      rw [emitted_append, ih.2, emitted_cons, hstep.quiet ih.1]
      rfl

structure Along (task : Task) (es : List Event) (s : Solo) : Prop where
  taskId : s.taskId = task.id
  cancelled : s.cancelled = true ↔ .cancelled ∈ es
  left : s.reading = false ↔ .left ∈ es
  tracks : s.producer.Tracks task.id (.ofTask task) (emitted es) s.cancelled s.reading

theorem along_fresh {delay : Nanos} {capacity : Nat} {script : SoloScript} :
    Along task [] (fresh delay capacity task script) where
  taskId := rfl
  cancelled := by simp [fresh]
  left := by simp [fresh]
  tracks := Producer.tracks_start

theorem Along.step (h : Along task es s) (hstep : Step s e s') : Along task (es ++ [e]) s' := by
  cases hstep with
  | @produced timestamp u producer hadv =>
      have hm := Producer.moves_of_advance? hadv
      rw [h.taskId] at hm
      refine ⟨h.taskId, by simp [h.cancelled], by simp [h.left], ?_⟩
      simpa [emitted, Event.emissions, around] using hm.tracks h.tracks
  | took _ _ | passed _ =>
      refine ⟨h.taskId, by simp [h.cancelled], by simp [h.left], ?_⟩
      simpa [emitted, Event.emissions] using h.tracks
  | cancelled =>
      refine ⟨h.taskId, by simp, by simp [h.left], ?_⟩
      simpa [emitted, Event.emissions] using h.tracks.mono (fun _ => rfl) id
  | left =>
      refine ⟨h.taskId, by simp [h.cancelled], by simp, ?_⟩
      simpa [emitted, Event.emissions] using h.tracks.mono id (fun _ => rfl)

theorem Course.along {delay : Nanos} {capacity : Nat} {script : SoloScript}
    (h : Course (fresh delay capacity task script) es s) : Along task es s := by
  induction h with
  | nil => exact along_fresh
  | snoc _ hstep ih => exact ih.step hstep

theorem Along.complete {e : Ending} (h : Along task es s) (hes : Undisturbed es)
    (he : s.producer.ending? = some e) :
    (emitted es).map Update.untimed = (Plan.ofTask task).updates task.id ∧
      e = (Plan.ofTask task).ending := by
  rcases h.tracks.of_ended he with ⟨rfl, hall⟩ | ⟨f, rest, -, hf, -, -⟩
  · exact ⟨hall, rfl⟩
  · rcases hf with ⟨-, hc⟩ | ⟨-, hr⟩
    · exact absurd (h.cancelled.mp hc) hes.1
    · exact absurd (h.left.mp hr) hes.2

theorem Step.remaining_le (h : Step s e s') :
    s'.producer.remaining + [e].countP Event.isProduced ≤ s.producer.remaining := by
  cases h with
  | produced hadv => exact (Producer.moves_of_advance? hadv).remaining_lt
  | took _ _ | passed _ | cancelled | left => exact Nat.le_refl _

theorem Course.remaining_le (h : Course s es s') :
    s'.producer.remaining + es.countP Event.isProduced ≤ s.producer.remaining := by
  induction h with
  | nil => exact Nat.le_refl _
  | snoc _ hstep ih =>
      have hle := hstep.remaining_le
      rw [List.countP_append]
      omega

theorem exists_emptied (hr : s.reading = true) : ∃ es read, Undisturbed es ∧
    Course s es { s with queue := [], read } := by
  generalize hq : s.queue = queue
  induction queue generalizing s with
  | nil =>
      refine ⟨[], s.read, by simp [Undisturbed], ?_⟩
      rw [← hq]
      exact .nil
  | cons u rest ih =>
      have hstep : Step s .took { s with queue := rest, read := s.read ++ [(s.now, u)] } :=
        .took hr hq
      obtain ⟨es, read, hes, hrun⟩ :=
        ih (s := { s with queue := rest, read := s.read ++ [(s.now, u)] }) hr rfl
      refine ⟨.took :: es, read, ?_, (Course.single hstep).append hrun⟩
      have hone : Undisturbed [.took] := by simp [Undisturbed]
      exact hone.append hes

theorem exists_produced (hcap : 0 < s.capacity) (hopen : s.producer.ending? = none) :
    ∃ es s', Undisturbed es ∧ Course s es s' ∧
      s'.producer.remaining < s.producer.remaining := by
  -- the reader makes room first, which leaves the producer as it is
  have hroom : ∃ es s', Undisturbed es ∧ Course s es s' ∧ s'.producer = s.producer ∧
      (s'.reading = true → s'.queue.length < s'.capacity) := by
    cases hr : s.reading with
    | false => exact ⟨[], s, by simp [Undisturbed], .nil, rfl, by simp [hr]⟩
    | true =>
        obtain ⟨es, read, hes, hrun⟩ := exists_emptied hr
        exact ⟨es, _, hes, hrun, rfl, fun _ => hcap⟩
  obtain ⟨es, mid, hes, hrun, hprod, hspace⟩ := hroom
  -- then the clock goes on until the producer wakes
  obtain ⟨d, hd⟩ : ∃ d, ∀ t, s.producer.stage = .sleeping t → t ≤ mid.now + d := by
    cases hstage : s.producer.stage with
    | sleeping t => exact ⟨t, fun t' h => by cases h; exact Nat.le_add_left ..⟩
    | ready | emitting u | ended e => exact ⟨0, fun _ h => by cases h⟩
  obtain ⟨u, producer, hadv⟩ : ∃ u producer, s.producer.advance? mid.taskId
      (around "" { mid with now := mid.now + d }) = some (u, producer) :=
    Producer.exists_advance hopen (fun _ => hd) fun _ hr => by simpa [around] using hspace hr
  rw [← hprod] at hadv
  have hlt := (Producer.moves_of_advance? hadv).remaining_lt
  refine ⟨es ++ [.passed d] ++ [.produced u], _, ?_, (hrun.snoc (.passed d)).snoc (.produced hadv),
    hprod ▸ hlt⟩
  exact (hes.append (by simp [Undisturbed])).append (by simp [Undisturbed])

theorem exists_end (hcap : 0 < s.capacity) :
    ∃ es s', Undisturbed es ∧ Course s es s' ∧ s'.HasEnded := by
  generalize hn : s.producer.remaining = n
  induction n using Nat.strongRecOn generalizing s with
  | ind n ih =>
      cases he : s.producer.ending? with
      | some e => exact ⟨[], s, by simp [Undisturbed], .nil, by simp [HasEnded, he]⟩
      | none =>
          obtain ⟨es, mid, hes, hrun, hlt⟩ := exists_produced hcap he
          obtain ⟨fs, s', hfs, hrun', hend⟩ :=
            ih _ (hn ▸ hlt) (hrun.capacity ▸ hcap) rfl
          exact ⟨es ++ fs, s', hes.append hfs, hrun.append hrun', hend⟩

theorem course_obey : ∃ es, Course s es s.obey := by
  unfold obey
  dsimp only
  by_cases hc : s.script.cancelAfter = some s.read.length
  · have hstep : Course s [.cancelled] { s with cancelled := true } := .single .cancelled
    rw [if_pos hc]
    by_cases hl : s.script.leaveAfter = some s.read.length
    · rw [if_pos hl]
      exact ⟨_, hstep.snoc .left⟩
    · rw [if_neg hl]
      exact ⟨_, hstep⟩
  · rw [if_neg hc]
    by_cases hl : s.script.leaveAfter = some s.read.length
    · rw [if_pos hl]
      exact ⟨_, .single .left⟩
    · rw [if_neg hl]
      exact ⟨[], .nil⟩

theorem course_produce (timestamp : String) (n : Nat) :
    ∃ es, Course s es (s.produce timestamp n) := by
  induction n generalizing s with
  | zero => exact ⟨[], .nil⟩
  | succ n ih =>
      rw [produce]
      split
      · exact ⟨[], .nil⟩
      · rename_i u producer hadv
        obtain ⟨es, h⟩ := ih (s := { s with producer, queue := s.queue ++ u.toList })
        exact ⟨_, (Course.single (.produced hadv)).append h⟩

theorem queue_obey (h : s.obey.reading = true) : s.obey.queue = s.queue := by
  unfold obey at h ⊢
  dsimp only at h ⊢
  grind

theorem course_consume {us : List Update} (hq : s.reading = true → s.queue = us) :
    ∃ es, Course s es (s.consume us) := by
  induction us generalizing s with
  | nil => exact ⟨[], .nil⟩
  | cons u rest ih =>
      rw [consume]
      split
      · rename_i hr
        have hstep : Step s .took { s with queue := rest, read := s.read ++ [(s.now, u)] } :=
          .took hr (hq hr)
        obtain ⟨es, h⟩ := course_obey
          (s := { s with queue := rest, read := s.read ++ [(s.now, u)] })
        obtain ⟨fs, k⟩ := ih
          (s := obey { s with queue := rest, read := s.read ++ [(s.now, u)] }) queue_obey
        exact ⟨_, ((Course.single hstep).append h).append k⟩
      · exact ⟨[], .nil⟩

theorem course_sleep (h : s.sleep = some s') : ∃ es, Course s es s' := by
  have hpass (t : Nanos) : Course s [.passed (t - s.now)] { s with now := max s.now t } := by
    rw [Nat.max_comm, ← Nat.sub_add_eq_max, Nat.add_comm]
    exact .single (.passed _)
  unfold sleep at h
  split at h
  · cases h
  · split at h
    · split at h <;> cases h
      · exact ⟨_, (hpass _).snoc .cancelled⟩
      · exact ⟨_, hpass _⟩
    · cases h
      exact ⟨_, hpass _⟩

theorem course_run (timestamp : String) (rounds : Nat) :
    ∃ es, Course s es (s.run timestamp rounds) := by
  induction rounds generalizing s with
  | zero => exact ⟨[], .nil⟩
  | succ rounds ih =>
      rw [run]
      obtain ⟨es, h⟩ := course_produce (s := s) timestamp
        (8 * s.capacity + 4 * s.producer.plan.actions.length + 8)
      generalize s.produce timestamp (8 * s.capacity + 4 * s.producer.plan.actions.length + 8) = mid
        at h
      obtain ⟨fs, k⟩ : ∃ fs, Course mid fs (mid.consume mid.queue) := course_consume fun _ => rfl
      have hmid := h.append k
      split
      · exact ⟨_, hmid⟩
      · split
        · split
          · exact ⟨_, hmid⟩
          · rename_i hsleep
            obtain ⟨gs, hs⟩ := course_sleep hsleep
            obtain ⟨hs', hrun⟩ := ih
            exact ⟨_, (hmid.append hs).append hrun⟩
        · obtain ⟨gs, hrun⟩ := ih
          exact ⟨_, hmid.append hrun⟩

theorem course_start_run {delay : Nanos} {capacity : Nat} {script : SoloScript}
    {timestamp : String} (rounds : Nat) : ∃ es, Course (fresh delay capacity task script) es
      ((start delay capacity task script).run timestamp rounds) := by
  obtain ⟨es, h⟩ := course_obey (s := fresh delay capacity task script)
  obtain ⟨fs, k⟩ := course_run (s := (fresh delay capacity task script).obey) timestamp rounds
  exact ⟨_, h.append k⟩

end AgentGateway.Solo
