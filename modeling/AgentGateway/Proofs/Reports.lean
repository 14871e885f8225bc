import AgentGateway.Proofs.Conclusions
import AgentGateway.Proofs.Kindred

namespace AgentGateway

def Message.reportedState? (m : Message) : Option TaskState :=
  match m.error with
  | some _ => some .failed
  | none => do
    let v ← m.result
    if v.get? "final" = some (.bool true) then
      let state ← (← v.get? "status").get? "state"
      TaskState.all.find? fun s => s.encode = state
    else none

namespace Update

variable {u : Update} {request : RequestId}

theorem find?_encode (s : TaskState) :
    (TaskState.all.find? fun t => t.encode = s.encode) = some s := by
  cases s <;> simp [TaskState.all, TaskState.encode, TaskState.name]

theorem get?_ofFields (fields : List (String × Json.Value)) (e : String × Json.Value)
    (key : String) : (Json.Value.ofFields (fields ++ [e])).get? key =
      if key = e.1 then some e.2 else (Json.Value.ofFields fields).get? key := by
  simp [Json.Value.ofFields, Json.Value.get?, KeyOrder.ofList, KeyOrder.insertAll,
    KeyOrder.lookup_insert]

theorem get?_status (s : TaskStatus) : s.encode.get? "state" = some s.state.encode := by
  cases hm : s.message <;> cases ht : s.timestamp <;>
    simp [TaskStatus.encode, Json.Value.ofPresent, Json.Value.ofFields, Json.Value.get?, hm, ht,
      KeyOrder.ofList, KeyOrder.insertAll, KeyOrder.lookup_insert]

theorem get?_final {e : StatusEvent} : e.encode.get? "final" = some (.bool e.isFinal) :=
  get?_ofFields [("id", .string e.id), ("status", e.status.encode)] ("final", _) "final"

theorem get?_unfinal {e : ArtifactEvent} : e.encode.get? "final" = none :=
  (get?_ofFields [("id", .string e.id)] ("artifact", _) "final").trans
    (get?_ofFields [] ("id", .string e.id) "final")

theorem reportedState?_toMessage :
    (u.toMessage request).reportedState? = if u.isFinal then u.state? else none := by
  cases u with
  | status e =>
      have hstatus : e.encode.get? "status" = some e.status.encode :=
        (get?_ofFields [("id", .string e.id), ("status", e.status.encode)] ("final", _)
          "status").trans (get?_ofFields [("id", .string e.id)] ("status", _) "status")
      simp only [toMessage, Message.success, Message.reportedState?, Option.bind_eq_bind,
        Option.bind_some, get?_final, hstatus, get?_status, find?_encode]
      cases hf : e.isFinal <;> simp [isFinal, hf, state?]
  | artifact e => simp [toMessage, Message.success, Message.reportedState?, get?_unfinal, isFinal]
  | error e => rfl

end Update

namespace Board

variable {b b' : Board} {x : Errand} {es : List Errand}

def Regular (b : Board) : Prop :=
  ∀ r s, b.line r = some s → (s.outbound.attached = true ↔ s.status ≠ .closed)

theorem Regular.step (h : b.Regular) (hs : Step b x b') : b'.Regular := by
  intro r s' hs'
  rcases hs.line_cases hs' with ⟨s, hl, hage⟩ | ⟨-, hnew, -⟩
  · exact hage.regular (h r s hl)
  · exact hnew

theorem Regular.path (h : b.Regular) (hp : Path b es b') : b'.Regular := by
  induction hp with
  | nil => exact h
  | snoc _ hs ih => exact ih.step hs

end Board

namespace Gateway

/-- That a session is not closed, and somebody takes what is queued for its peer. -/
def IsServed (r : SessionRef) (g : Gateway) : Prop :=
  ∃ s, g.session? r = some s ∧ s.status ≠ .closed ∧ s.outbound.receiving = true

end Gateway

section Run

open Gateway

variable {g₀ g g₁ g' : Gateway} {ms before after : List Moment} {m : Moment} {a : Act}
  {p : ProcessId} {r : SessionRef} {i : Invocation} {e : Ending} {s : Subscriber}
  {u u₁ : Subscription} {d : Delivery}

theorem Gateway.sent_idle (h : g.perform a = some g') (ha : a ≠ .control p)
    (hi : g.invocation? p = none) : Moment.sent p r ⟨g, a, g'⟩ = [] := by
  cases a with
  | consume q =>
      have hq : q ≠ p := by
        rintro rfl
        obtain ⟨i, hi', -⟩ := Option.bind_eq_some_iff.mp h
        simp [hi] at hi'
      simp [Moment.sent, hq]
  | control q =>
      have hq : q ≠ p := fun heq => ha (congrArg Act.control heq)
      simp [Moment.sent, hq]
  | _ => rfl

theorem Gateway.subscription_of_control (h : g.control? p = some g')
    (hu : g'.process? p = some (.subscription u)) :
    ∃ v g₁, g.process? p = some (.subscription v) ∧ g.subscription? p v = some (u, g₁) ∧
      g'.desk = g₁.desk := by
  have hset {g₁ : Gateway} {z : Process}
      (hy : (g₁.setProcess p z).process? p = some (.subscription u)) : z = .subscription u := by
    rw [process?_setProcess, if_pos rfl, Option.map_eq_some_iff] at hy
    obtain ⟨-, -, hy⟩ := hy
    exact hy
  obtain ⟨x, hx, h⟩ := Option.bind_eq_some_iff.mp h
  cases x with
  | subscription v =>
      obtain ⟨u', g₁, hsub, rfl⟩ := of_staged h
      cases hset hu
      exact ⟨v, g₁, hx, hsub, desk_setProcess⟩
  | message | answer | sessionLoop | call | pages | notice | sweeper =>
      obtain ⟨z, g₁, -, rfl⟩ := of_staged h
      cases hset hu

theorem Gateway.subscription_of_perform (hn : g.Numbered) (h : g.perform a = some g')
    (hp : p < g.nextProcess) (hu : g'.process? p = some (.subscription u)) :
    ∃ v, g.process? p = some (.subscription v) := by
  by_cases ha : a = .control p
  · subst ha
    obtain ⟨v, g₁, hv, -⟩ := subscription_of_control h hu
    exact ⟨v, hv⟩
  · obtain ⟨x, hx, hk⟩ := kindred_begun hn h ha hp hu
    obtain ⟨v, rfl⟩ := hk.exists_of_subscription
    exact ⟨v, hx⟩

theorem Run.grown (hn : g₁.Numbered) (hr : Run g₁ ms g) : g₁.nextProcess ≤ g.nextProcess := by
  induction hr with
  | nil => exact Nat.le_refl _
  | snoc hrun hstep ih =>
      exact Nat.le_trans ih (simulated_perform (hrun.numbered hn) hstep).spares.grown

theorem Run.subscription (hn : g₁.Numbered) (hr : Run g₁ ms g) (hp : p < g₁.nextProcess)
    (hu : g.process? p = some (.subscription u)) : ∃ v, g₁.process? p = some (.subscription v) := by
  induction hr generalizing u with
  | nil => exact ⟨u, hu⟩
  | snoc hrun hstep ih =>
      have hlt := Nat.lt_of_lt_of_le hp (hrun.grown hn)
      obtain ⟨v, hv⟩ := subscription_of_perform (hrun.numbered hn) hstep hlt hu
      exact ih hv

theorem Run.isOpen (hn : g₁.Numbered) (hr : Run g₁ ms g) (hl : r < g₁.sessions.length)
    (ho : g.IsOpen r) : g₁.IsOpen r := by
  induction hr with
  | nil => exact ho
  | snoc hrun hstep ih =>
      exact ih (isOpen_of_perform (hrun.numbered hn) hstep (hrun.opened hn hl) ho)

theorem Gateway.IsNew.regular (h₀ : g₀.IsNew) : g₀.board.Regular := by
  obtain ⟨settings, tools, epoch, rfl⟩ := h₀
  intro r s hs
  cases hs

theorem Run.regular (h₀ : g₀.IsNew) (hr : Run g₀ ms g) : g.board.Regular := by
  obtain ⟨es, hp, -⟩ := hr.boards h₀.numbered
  exact h₀.regular.path hp

theorem Run.isOpen_of_served (h₀ : g₀.IsNew) (hr : Run g₀ ms g) (hs : g.IsServed r) :
    g.IsOpen r := by
  obtain ⟨s, hs, hopen, hrecv⟩ := hs
  exact ⟨s, hs, (hr.regular h₀ r s hs).mpr hopen, hrecv⟩

/-- What a subscription whose invocation is closed has still to send on a session. -/
def Subscription.Owes (r : SessionRef) (owed : List Message) : Subscription → Prop
  | .running _ => False
  | .closing q d => q = r ∧ owed = [d.message]
  | .done => owed = []

theorem Subscription.Owes.isOver {owed : List Message} (h : u.Owes r owed) : u.IsOver := by
  cases u with
  | running i => exact h
  | closing q d => trivial
  | done => trivial

theorem Gateway.closing_step (hn : g.Numbered) (hstep : g.perform (.control p) = some g')
    (hl : r < g.sessions.length) (hsub : g.subscription? p (.closing r d) = some (u, g₁))
    (hdesk : g'.desk = g₁.desk) : ∃ left, u.Owes r left ∧
      (g'.IsOpen r → Moment.sent p r ⟨g, .control p, g'⟩ ++ left = [d.message]) := by
  have hdel := delivered_deliver (g := g) (p := p) (r := r) d
  simp only [subscription?] at hsub
  generalize g.deliver p r d = z at hsub hdel
  obtain ⟨state, g₂⟩ := z
  cases hdel with
  | sent hbox =>
      cases hsub
      have hg : g'.outbox r = g.outbox r ++ [d.message] := (outbox_of_desk hdesk).trans hbox
      refine ⟨[], rfl, fun _ => ?_⟩
      simp [Moment.sent, hg]
  | @pending d' _ hbox hm =>
      dsimp only at hsub
      split at hsub <;> cases hsub
      have hg : g'.outbox r = g.outbox r := (outbox_of_desk hdesk).trans hbox
      refine ⟨[d'.message], ⟨rfl, rfl⟩, fun _ => ?_⟩
      simp [Moment.sent, hg, hm]
  | failed hclosed =>
      cases hsub
      exact ⟨[], rfl, fun ho => (hclosed (isOpen_of_perform hn hstep hl ho)).elim⟩

theorem Gateway.owes_of_perform {owed : List Message} (hn : g.Numbered)
    (hstep : g.perform a = some g') (hl : r < g.sessions.length)
    (hv : g.process? p = some (.subscription u₁)) (ho : u₁.Owes r owed)
    (hu : g'.process? p = some (.subscription u)) : ∃ left, u.Owes r left ∧
      (g'.IsOpen r → Moment.sent p r ⟨g, a, g'⟩ ++ left = owed) := by
  by_cases ha : a = .control p
  · subst ha
    obtain ⟨v, g₁, hv', hsub, hdesk⟩ := subscription_of_control hstep hu
    cases hv.symm.trans hv'
    cases u₁ with
    | running i => exact ho.elim
    | closing q d =>
        obtain ⟨rfl, rfl⟩ := ho
        exact closing_step hn hstep hl hsub hdesk
    | done => cases hsub
  · have hnone : g.invocation? p = none := by
      rw [invocation?_eq hv]
      cases u₁ with
      | running i => exact ho.elim
      | closing q d => rfl
      | done => rfl
    rcases kindred_perform hn hstep ha hu with ⟨x, hx, hk⟩ | ⟨hge, -⟩
    · cases hv.symm.trans hx
      cases hk.of_over ho.isOver
      refine ⟨owed, ho, fun _ => ?_⟩
      rw [sent_idle hstep ha hnone, List.nil_append]
    · simp [hn p hge] at hv

theorem Run.owes {owed : List Message} (hn : g₁.Numbered) (hr : Run g₁ ms g)
    (hl : r < g₁.sessions.length) (h₁ : g₁.process? p = some (.subscription u₁))
    (ho : u₁.Owes r owed) (hu : g.process? p = some (.subscription u)) : ∃ left, u.Owes r left ∧
      (g.IsOpen r → ms.flatMap (Moment.sent p r) ++ left = owed) := by
  have hp : p < g₁.nextProcess := by
    by_contra hlt
    simp [hn p (Nat.not_lt.mp hlt)] at h₁
  induction hr generalizing u with
  | nil =>
      cases h₁.symm.trans hu
      exact ⟨owed, ho, fun _ => rfl⟩
  | @snoc ms g a g' hrun hstep ih =>
      have hng := hrun.numbered hn
      have hlg := hrun.opened hn hl
      obtain ⟨v, hv⟩ := subscription_of_perform hng hstep (Nat.lt_of_lt_of_le hp (hrun.grown hn)) hu
      obtain ⟨owed', hv', hsent⟩ := ih hv
      obtain ⟨left, hleft, hthen⟩ := owes_of_perform hng hstep hlg hv hv' hu
      refine ⟨left, hleft, fun hopen => ?_⟩
      rw [← hsent (isOpen_of_perform hng hstep hlg hopen), ← hthen hopen]
      simp

/-- The report that is still owed to the subscriber when an invocation is closed. -/
def Gateway.closingReport (i : Invocation) (e : Ending) (s : Subscriber) (g : Gateway) :
    List Message :=
  if e = .failed .cancelled then
    [((g.concludeTask i e).cancellation i.taskId).toMessage s.request]
  else []

theorem Gateway.subscription_concluded (hstep : g.perform a = some g')
    (hc : Moment.Concludes p i e ⟨g, a, g'⟩) (hv : g.process? p = some (.subscription u₁))
    (hs : i.subscriber = some s) : ∃ u, g'.process? p = some (.subscription u) ∧
      u.Owes s.session (g.closingReport i e s) := by
  obtain ⟨ha, hi, he⟩ := hc
  obtain rfl : a = .control p := ha
  obtain rfl : u₁ = .running i := by
    rw [invocation?_eq hv] at hi
    cases u₁ <;> cases hi
    rfl
  obtain ⟨x, hx, hstep⟩ := Option.bind_eq_some_iff.mp hstep
  cases hv.symm.trans hx
  obtain ⟨u, g₁, hsub, rfl⟩ := of_staged hstep
  simp only [subscription?, Option.map_eq_some_iff] at hsub
  obtain ⟨e', he', hsub⟩ := hsub
  obtain rfl : e = e' := Option.some.inj (he.symm.trans he')
  have hp : (g.concludeTask i e).process? p = some (.subscription (.running i)) := hv
  refine ⟨u, ?_, ?_⟩
  · have hp₁ : g₁.process? p = some (.subscription (.running i)) := by
      split at hsub <;> cases hsub <;> exact hp
    rw [process?_setProcess, if_pos rfl, hp₁]
    rfl
  · by_cases hcan : e = .failed .cancelled
    · subst hcan
      simp only [hs] at hsub
      cases hsub
      exact ⟨rfl, if_pos rfl⟩
    · split at hsub
      · exact absurd rfl hcan
      · cases hsub
        exact if_neg hcan

theorem Gateway.sent_concluded (hstep : g.perform a = some g')
    (hc : Moment.Concludes p i e ⟨g, a, g'⟩) : Moment.sent p r ⟨g, a, g'⟩ = [] := by
  obtain ⟨y, rfl, -⟩ := concluded hstep hc
  obtain rfl : a = .control p := hc.1
  have hbox : ((g.concludeTask i e).setProcess p y).outbox r = g.outbox r := outbox_of_desk rfl
  simp [Moment.sent, hbox]

theorem Workshop.Progress.told {ds : List Deed} {w : Workshop} {t₀ : Task} {folded : List Update}
    (hp : Progress ds w p i t₀ folded) (he : i.ending? = some e) (hne : e ≠ .failed .cancelled)
    (hlost : .lost p i.token ∉ ds) (hs : i.subscriber = some s) :
    e.state ≠ .canceled ∧ ∃ last, (toldIn ds p).getLast? = some last ∧
      last.reportedState? = some e.state := by
  obtain ⟨hstop, -, hout⟩ := hp.outcome he
  obtain ⟨hplan, hall⟩ := hout.resolve_right fun h => hne h.1
  obtain ⟨first, middle, final, hscript⟩ := hp.script
  refine ⟨hplan ▸ hscript.uncanceled, ?_⟩
  have hcons := hp.consumed
  simp only [Invocation.Consumed, hstop] at hcons
  obtain ⟨hq, -, htold⟩ := hcons.resolve_left fun h => hlost h.1
  have hfolded : emittedIn ds i.token = folded := by rw [hp.kept, hq, List.append_nil]
  obtain ⟨x, hx, hfinal, hxs⟩ := hscript.exists_last (hfolded ▸ hall)
  refine ⟨x.toMessage s.request, ?_, ?_⟩
  · rw [htold s hs, List.getLast?_map, hx]
    rfl
  · rw [Update.reportedState?_toMessage, hfinal, if_pos rfl, hxs, hplan]

/-- The last message that a subscriber gets reports how the invocation has ended. The store says the
same where the invocation has not been told to stop, and where it has stopped because of that. -/
theorem last_report (h₀ : g₀.IsNew) (hr : Run g₀ ms g) (hms : ms = before ++ m :: after)
    (hc : m.Concludes p i e) (hs : i.subscriber = some s)
    (hdone : g.process? p = some (.subscription .done)) (hserved : g.IsServed s.session) :
    ∃ last task, (ms.flatMap (Moment.sent p s.session)).getLast? = some last ∧
      m.after.store.find? i.taskId = some ⟨task, none⟩ ∧ last.reportedState? = some e.state ∧
      (last.reportedState? = some task.state ↔
        (i.token ∈ m.before.signalled → e = .failed .cancelled)) := by
  obtain ⟨hrun, hstep, hrest⟩ := hr.split hms
  obtain ⟨ds, hh⟩ := hrun.history h₀
  obtain ⟨t₀, folded, entry, timestamp, hp, hent, -, hafter⟩ := hh.concludes hstep hc
  have hi := hc.2.1
  have hn : m.after.Numbered := (hrun.snoc hstep).numbered h₀.numbered
  have hl := hh.opened p i s hi hs
  have hl' := lt_of_perform hh.numbered hstep hl
  -- the subscriber has been there all the time, and so has not been lost
  have hopen : g.IsOpen s.session := hr.isOpen_of_served h₀ hserved
  have hlost : .lost p i.token ∉ ds := fun hlost =>
    hh.lost p i s hi hs hlost (isOpen_of_perform hh.numbered hstep hl (hrest.isOpen hn hl' hopen))
  have hlt : p < m.before.nextProcess := by
    by_contra hge
    simp [invocation?, hh.numbered p (Nat.not_lt.mp hge)] at hi
  have hlt' : p < m.after.nextProcess :=
    Nat.lt_of_lt_of_le hlt (simulated_perform hh.numbered hstep).spares.grown
  obtain ⟨v, hv⟩ := hrest.subscription hn hlt' hdone
  obtain ⟨u, hu⟩ := subscription_of_perform hh.numbered hstep hlt hv
  -- what it gets is what it has been told before, and what is owed to it then
  obtain ⟨u', hu', howes⟩ := subscription_concluded hstep hc hu hs
  obtain ⟨left, hleft, hthen⟩ := hrest.owes hn hl' hu' howes hdone
  obtain rfl : left = [] := hleft
  have hsent : ms.flatMap (Moment.sent p s.session) =
      toldIn ds p ++ m.before.closingReport i e s := by
    rw [hms, List.flatMap_append, List.flatMap_cons, sent_concluded hstep hc, List.nil_append,
      hh.sent p i s hi hs, ← hthen hopen, List.append_nil]
  have hstate : (entry.finish e timestamp).task.state =
      if i.token ∈ m.before.signalled then .canceled else e.state :=
    hp.finished hc.2.2 hlost hent
  have hstored : m.after.store.find? i.taskId =
      some ⟨(entry.finish e timestamp).task, none⟩ := hafter
  by_cases hcan : e = .failed .cancelled
  · subst hcan
    obtain ⟨-, hended, -⟩ := hp.outcome hc.2.2
    have hsig : i.token ∈ m.before.signalled := hp.stopped hended
    rw [closingReport, if_pos rfl] at hsent
    refine ⟨_, _, by rw [hsent, List.getLast?_concat], hstored, ?_, ?_⟩
    · rw [Update.reportedState?_toMessage]
      rfl
    · rw [Update.reportedState?_toMessage, hstate, if_pos hsig]
      simp [cancellation, Update.isFinal, Update.state?]
  · rw [closingReport, if_neg hcan, List.append_nil] at hsent
    obtain ⟨hne, last, hlast, hrep⟩ := hp.told hc.2.2 hcan hlost hs
    refine ⟨last, _, by rw [hsent, hlast], hstored, hrep, ?_⟩
    rw [hrep, hstate]
    by_cases hsig : i.token ∈ m.before.signalled
    · simp [hsig, hcan, hne]
    · simp [hsig]

end Run

theorem last_report_differs : ∃ g before m g' p i e s last task, Run g (before ++ [m]) g' ∧
    m.Concludes p i e ∧ i.subscriber = some s ∧ g'.process? p = some (.subscription .done) ∧
    g'.IsServed s.session ∧
    ((before ++ [m]).flatMap (Moment.sent p s.session)).getLast? = some last ∧
    m.after.store.find? i.taskId = some ⟨task, none⟩ ∧
    last.reportedState? = some .completed ∧ task.state = .canceled := by
  obtain ⟨before, g, hr, -, h⟩ := Run.exists_of_replay
    (Act.subscribing "respond(text, \"hi\")" ++ List.replicate 9 (.produce 1) ++
      [.submit "a" (.request (.number 2) "tasks/cancel" (some (.ofFields [("id", .string "t")]))),
        .control 2] ++ List.replicate 7 (.consume 1)) (Gateway.new {} [])
    (fun _ g => (g.invocation? 1).any fun i => i.subscriber.any fun s =>
      i.ending? = some (.reached .completed) ∧ (g.perform (.control 1)).any fun g =>
        ((g.process? 1).any fun x => x matches .subscription .done) ∧
        ((g.session? s.session).any fun s => s.status ≠ .closed ∧ s.outbound.receiving = true) ∧
        (g.store.find? i.taskId).any fun entry => entry.task.state = .canceled)
    (by decide +kernel)
  simp only [Option.any_eq_true, decide_eq_true_eq] at h
  obtain ⟨i, hi, s, hs, he, g', hstep, ⟨x, hx, hdone⟩, hserved, entry, hentry, hstate⟩ := h
  have hdone : g'.process? 1 = some (.subscription .done) := by
    split at hdone
    · exact hx
    · cases hdone
  have hc : Moment.Concludes 1 i (.reached .completed) ⟨g, .control 1, g'⟩ := ⟨rfl, hi, he⟩
  have hr := hr.snoc hstep
  obtain ⟨last, task, hlast, hstored, hrep, -⟩ :=
    last_report ⟨{}, [], 0, rfl⟩ hr rfl hc hs hdone hserved
  obtain rfl : _ = entry := Option.some.inj (hstored.symm.trans hentry)
  exact ⟨_, _, _, _, _, _, _, s, last, task, hr, hc, hs, hdone, hserved, hlast, hstored, hrep,
    hstate⟩

end AgentGateway
