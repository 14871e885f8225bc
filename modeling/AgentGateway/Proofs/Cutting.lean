import AgentGateway.Proofs.Course

namespace AgentGateway

namespace Plan.Closes

variable {id : String} {p : Plan} {before : List Action} {last : Update} {us : List Update}

theorem concludes_of_final (h : p.Closes before last) (hp : us.map Update.untimed <+: p.updates id)
    {vs ws : List Update} {u : Update} (hus : us = vs ++ u :: ws) (hu : u.isFinal = true) :
    ws = [] ∧ u.Concludes p.ending ∧ us.map Update.untimed = p.updates id := by
  have hopen : u.untimed ∉ updatesOf id before := by
    intro hmem
    have hfalse := isFinal_of_open h.isOpen _ hmem
    rw [Update.isFinal_untimed, hu] at hfalse
    cases hfalse
  rw [updates_of_closes h] at hp ⊢
  rcases List.prefix_concat_iff.mp hp with heq | hbefore
  · refine ⟨?_, ?_, heq⟩
    · cases ws using List.reverseRecOn with
      | nil => rfl
      | append_singleton ws w =>
          rw [hus, ← List.cons_append, ← List.append_assoc, List.map_append] at heq
          have hmid := (List.append_inj' heq rfl).1
          exact absurd (hmid ▸ by simp) hopen
    · have hmem : u.untimed ∈ updatesOf id before ++ [last.untimed] := by
        rw [← heq, hus]
        simp
      rcases List.mem_append.mp hmem with hmem | hmem
      · exact absurd hmem hopen
      · rw [List.mem_singleton] at hmem
        exact .of_untimed (hmem ▸ h.concludes.untimed)
  · refine absurd (hbefore.subset ?_) hopen
    simp [hus]

theorem exists_final (h : p.Closes before last) (hall : us.map Update.untimed = p.updates id) :
    ∃ u ∈ us, u.isFinal = true := by
  have hmem : last.untimed ∈ us.map Update.untimed := by
    rw [hall, updates_of_closes h]
    simp
  obtain ⟨u, hu, heq⟩ := List.mem_map.mp hmem
  refine ⟨u, hu, ?_⟩
  rw [← Update.isFinal_untimed, heq]
  exact h.concludes.untimed.isFinal

theorem open_of_rest (h : p.Closes before last) {rest : List Update} (hrest : rest ≠ [])
    (hw : us.map Update.untimed ++ rest = p.updates id) : ∀ u ∈ us, u.isFinal = false := by
  intro u hu
  obtain ⟨vs, ws, hus⟩ := List.append_of_mem hu
  by_contra hfinal
  obtain ⟨-, -, hall⟩ :=
    h.concludes_of_final ⟨rest, hw⟩ hus (Bool.not_eq_false _ ▸ hfinal)
  rw [hall] at hw
  exact hrest (List.append_right_eq_self.mp hw)

end Plan.Closes

namespace Solo

variable {task : Task} {es fs : List Event} {s s' : Solo} {e : Ending}

theorem Along.ended_iff (h : Along task es s) (he : s.producer.ending? = some e) :
    ((e = .failed .cancelled ∨ e = .failed .abandoned) ↔ ∀ u ∈ emitted es, u.isFinal = false) ∧
      ∀ u ∈ emitted es, u.isFinal = true → u.Concludes e := by
  obtain ⟨before, last, hcloses⟩ := Plan.closes_ofTask task
  rcases h.tracks.of_ended he with ⟨rfl, hall⟩ | ⟨f, rest, rfl, hf, hrest, hw⟩
  · refine ⟨⟨fun hf => ?_, fun hopen => ?_⟩, fun u hu hfinal => ?_⟩
    · exact absurd hf (not_or.mpr hcloses.concludes.unstopped)
    · obtain ⟨u, hu, hfinal⟩ := hcloses.exists_final hall
      rw [hopen u hu] at hfinal
      cases hfinal
    · obtain ⟨vs, ws, hus⟩ := List.append_of_mem hu
      exact (hcloses.concludes_of_final h.tracks.isPrefix hus hfinal).2.1
  · have hopen := hcloses.open_of_rest hrest hw
    refine ⟨⟨fun _ => hopen, fun _ => ?_⟩, fun u hu hfinal => ?_⟩
    · exact hf.imp (fun hc => congrArg Ending.failed hc.1) fun ha => congrArg Ending.failed ha.1
    · rw [hopen u hu] at hfinal
      cases hfinal

theorem Along.stopped_by (h : Along task es s) (he : s.producer.ending? = some e) :
    (e = .failed .cancelled → .cancelled ∈ es) ∧ (e = .failed .abandoned → .left ∈ es) := by
  obtain ⟨before, last, hcloses⟩ := Plan.closes_ofTask task
  obtain ⟨hnc, hna⟩ := hcloses.concludes.unstopped
  rcases h.tracks.of_ended he with ⟨rfl, -⟩ | ⟨f, rest, rfl, ⟨rfl, hc⟩ | ⟨rfl, hr⟩, -, -⟩
  · exact ⟨fun hc => absurd hc hnc, fun ha => absurd ha hna⟩
  · exact ⟨fun _ => h.cancelled.mp hc, fun ha => by cases ha⟩
  · exact ⟨fun hc => (by cases hc), fun _ => h.left.mp hr⟩

/-- Whatever stops an invocation, and whenever: what has entered the queue is, but for times, a
beginning of what enters it in any course that is left alone and comes to an end; nothing enters it
after the stop; a final update is the last one, and tells how the invocation has ended; there is
none exactly if it was stopped or lost its reader. And an end is always within reach. -/
theorem cut_cleanly {delay : Nanos} {capacity : Nat} {script : SoloScript}
    (h : Course (fresh delay capacity task script) es s) :
    (∀ delay' capacity' script' fs s', Course (fresh delay' capacity' task script') fs s' →
      Undisturbed fs → s'.HasEnded →
        (emitted es).map Update.untimed <+: (emitted fs).map Update.untimed) ∧
    (∀ before after, es = before ++ .cancelled :: after → emitted after = []) ∧
    (∀ before u after, emitted es = before ++ u :: after → u.isFinal = true → after = []) ∧
    (∀ e, s.producer.ending? = some e →
      ((e = .failed .cancelled ∨ e = .failed .abandoned) ↔ ∀ u ∈ emitted es, u.isFinal = false) ∧
      (∀ u ∈ emitted es, u.isFinal = true → u.Concludes e) ∧
      (e = .failed .cancelled → .cancelled ∈ es) ∧ (e = .failed .abandoned → .left ∈ es)) ∧
    (0 < capacity → ∃ fs s', Undisturbed fs ∧ Course s fs s' ∧ s'.HasEnded) ∧
    es.countP Event.isProduced ≤ (Producer.start delay task).remaining := by
  have halong := h.along
  obtain ⟨before, last, hcloses⟩ := Plan.closes_ofTask task
  have hprefix := halong.tracks.isPrefix
  refine ⟨?_, ?_, ?_, ?_, ?_, ?_⟩
  · intro delay' capacity' script' fs s' hrun hfs hend
    obtain ⟨e, he⟩ := Option.isSome_iff_exists.mp hend
    rw [(hrun.along.complete hfs he).1]
    exact hprefix
  · rintro before after rfl
    -- the course is cut right after the stop, and the rest of it begins stopped
    rw [← List.singleton_append, ← List.append_assoc] at h
    obtain ⟨mid, hbefore, hafter⟩ := h.split
    exact (hafter.quiet (hbefore.along.cancelled.mpr (by simp))).2
  · intro before u after hus hu
    exact (hcloses.concludes_of_final hprefix hus hu).1
  · intro e he
    obtain ⟨hiff, hfinal⟩ := halong.ended_iff he
    exact ⟨hiff, hfinal, halong.stopped_by he⟩
  · intro hcap
    exact exists_end (h.capacity ▸ hcap)
  · have hle := h.remaining_le
    exact Nat.le_trans (Nat.le_add_left ..) hle

theorem cut_cleanly_streaming :
    let task : Task :=
      { id := "t", status := { state := .submitted }, history := [.userText "stream(3)"] }
    let script : SoloScript := { cancelAfter := some 2 }
    let s := (start (Nanos.ofSecs 1) 1 task script).run "now" 20
    s.producer.ending? = some (.failed .cancelled) ∧ s.read.length = 2 ∧
      ∃ es, Course (fresh (Nanos.ofSecs 1) 1 task script) es s ∧ .cancelled ∈ es ∧
        (∀ u ∈ emitted es, u.isFinal = false) ∧
        ∀ before after, es = before ++ .cancelled :: after → emitted after = [] := by
  intro task script s
  have hs : s.producer.ending? = some (.failed .cancelled) ∧ s.read.length = 2 := by
    decide +kernel
  obtain ⟨es, hrun⟩ : ∃ es, Course (fresh (Nanos.ofSecs 1) 1 task script) es s :=
    course_start_run 20
  obtain ⟨-, hquiet, -, hended, -, -⟩ := cut_cleanly hrun
  obtain ⟨hopen, -, hcancelled, -⟩ := hended _ hs.1
  exact ⟨hs.1, hs.2, es, hrun, hcancelled rfl, hopen.mp (.inl rfl), hquiet⟩

end Solo

end AgentGateway
