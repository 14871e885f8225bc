import AgentGateway.Proofs.Cutting
import AgentGateway.Proofs.Origin
import AgentGateway.Proofs.Reports

namespace AgentGateway

/-- That a message tells the peer that no more will follow it. -/
def Message.IsClosing (m : Message) : Prop :=
  m.error.isSome = true ∨ m.result.bind (·.get? "final") = some (.bool true)

namespace Update

variable {u : Update} {request : RequestId}

theorem isClosing_toMessage : (u.toMessage request).IsClosing ↔ u.isFinal = true := by
  cases u with
  | status e => simp [toMessage, Message.success, Message.IsClosing, get?_final, isFinal]
  | artifact e => simp [toMessage, Message.success, Message.IsClosing, get?_unfinal, isFinal]
  | error e => simp [toMessage, Message.failure, Message.IsClosing, isFinal]

theorem id_toMessage : (u.toMessage request).id = some request := by cases u <;> rfl

end Update

def ClosedBy (us : List Update) : Prop :=
  ∃ init last, us = init ++ [last] ∧ last.isFinal = true ∧ ∀ u ∈ init, u.isFinal = false

theorem ClosedBy.messages {us : List Update} {request : RequestId} (h : ClosedBy us) :
    ∃ init last, us.map (Update.toMessage request) = init ++ [last] ∧ last.IsClosing ∧
      ∀ x ∈ init, ¬ x.IsClosing := by
  obtain ⟨init, last, rfl, hfinal, hopen⟩ := h
  refine ⟨_, _, List.map_append, Update.isClosing_toMessage.mpr hfinal, fun x hx => ?_⟩
  obtain ⟨u, hu, rfl⟩ := List.mem_map.mp hx
  simp [Update.isClosing_toMessage, hopen u hu]

theorem Plan.Closes.closedBy {id : String} {p : Plan} {before : List Action} {last : Update}
    {us : List Update} (h : p.Closes before last) (hall : us.map Update.untimed = p.updates id) :
    ClosedBy us := by
  have hp : us.map Update.untimed <+: p.updates id := hall ▸ List.prefix_rfl
  obtain ⟨u, hu, hfinal⟩ := h.exists_final hall
  obtain ⟨init, rest, hus⟩ := List.append_of_mem hu
  obtain ⟨rfl, -⟩ := h.concludes_of_final hp hus hfinal
  refine ⟨init, u, hus, hfinal, fun v hv => ?_⟩
  by_contra hv'
  obtain ⟨vs, ws, rfl⟩ := List.append_of_mem hv
  have hsplit : us = vs ++ v :: (ws ++ [u]) := by simp [hus]
  obtain ⟨hnil, -⟩ := h.concludes_of_final hp hsplit (by simpa using hv')
  simp at hnil

theorem Workshop.Progress.closedBy {ds : List Deed} {w : Workshop} {p : ProcessId} {i : Invocation}
    {t₀ : Task} {folded : List Update} {e : Ending} (hp : Progress ds w p i t₀ folded)
    (he : i.ending? = some e) :
    e = .failed .cancelled ∧ (∀ u ∈ emittedIn ds i.token, u.isFinal = false) ∨
      e ≠ .failed .cancelled ∧ ClosedBy (emittedIn ds i.token) := by
  obtain ⟨-, hended, -⟩ := hp.outcome he
  obtain ⟨before, last, hcloses⟩ := Plan.closes_ofTask t₀
  rcases hp.follows.of_ended hended with
    ⟨rfl, hall⟩ | ⟨f, rest, rfl, ⟨rfl, -⟩ | ⟨-, hr⟩, hrest, hw⟩
  · exact .inr ⟨hcloses.concludes.unstopped.1, hcloses.closedBy hall⟩
  · exact .inl ⟨rfl, hcloses.open_of_rest hrest hw⟩
  · cases hr

section Run

open Gateway

variable {g₀ g₁ g g' : Gateway} {ms before after : List Moment} {ds : List Deed} {b m : Moment}
  {a : Act} {p q : ProcessId} {k : Token} {i i₁ : Invocation} {e : Ending} {s : Subscriber}
  {u : Subscription} {params : TaskSendParams} {task : Task}

theorem History.token_free (h : History ms ds g) (hstep : g.perform a = some g')
    (hc : Moment.Concludes p i e ⟨g, a, g'⟩) {j : Invocation} (hj : g'.invocation? q = some j) :
    j.token ≠ i.token := by
  obtain ⟨y, rfl, hy⟩ := concluded hstep hc
  have hi : g.invocation? p = some i := hc.2.1
  rw [invocation?, process?_setProcess] at hj
  split at hj
  · obtain ⟨x, hx, hxj⟩ := Option.bind_eq_some_iff.mp hj
    obtain ⟨-, -, rfl⟩ := Option.map_eq_some_iff.mp hx
    cases hy.symm.trans hxj
  · rename_i hq
    have hj : g.invocation? q = some j := hj
    exact (h.path.sound.other (work_eq hi) (work_eq hj) hq).1

theorem Run.muted (hn : g₁.Numbered) (hr : Run g₁ ms g) (hk : k < g₁.nextToken)
    (hfree : ∀ q j, g₁.invocation? q = some j → j.token ≠ k) :
    ms.flatMap (Moment.emitted k) = [] := by
  suffices h : (∀ q j, g.invocation? q = some j → j.token ≠ k) ∧
      ms.flatMap (Moment.emitted k) = [] from h.2
  induction hr with
  | nil => exact ⟨hfree, rfl⟩
  | @snoc ms g a g' hrun hstep ih =>
      obtain ⟨hold, hmute⟩ := ih
      obtain ⟨-, d, hw, -⟩ := simulated_perform (hrun.numbered hn) hstep
      constructor
      · intro q j hj
        rcases hw.work (work_eq hj) with ⟨i, hi, -, htok, -⟩ | ⟨-, t, -, htok⟩
        · obtain ⟨i, hi', rfl⟩ := exists_of_work hi
          exact fun heq => hold q i hi' (htok.trans heq)
        · have htok : j.token = g.nextToken := htok
          have hlt := Nat.lt_of_lt_of_le hk (hrun.nextToken_le hn)
          exact fun heq => absurd (heq.symm.trans htok) (Nat.ne_of_lt hlt)
      · have hlast : Moment.emitted k ⟨g, a, g'⟩ = [] := by
          unfold Moment.emitted
          split
          · split
            · rename_i hi _
              exact if_neg (hold _ _ hi)
            · rfl
          · rfl
        simp [hmute, hlast]

theorem Gateway.isOver_subscription? {v : Subscription}
    (h : g.subscription? p v = some (u, g₁)) : u.IsOver := by
  unfold subscription? at h
  split at h
  · obtain ⟨e, -, h⟩ := Option.map_eq_some_iff.mp h
    dsimp only at h
    split at h <;> cases h <;> trivial
  · split at h
    · split at h <;> cases h
      trivial
    · cases h
      trivial
  · cases h

theorem Gateway.running_of_others (hn : g.Numbered) (h : g.perform a = some g')
    (ha : a ≠ .control p) (hi : g.process? p = some (.subscription (.running i)))
    (hu : g'.process? p = some (.subscription u)) : ∃ j, u = .running j ∧ j.token = i.token := by
  rcases kindred_perform hn h ha hu with ⟨x, hx, hk⟩ | ⟨hge, -⟩
  · cases hi.symm.trans hx
    obtain ⟨j, rfl⟩ := hk.exists_of_running
    refine ⟨j, rfl, ?_⟩
    obtain ⟨-, d, hw, -⟩ := simulated_perform hn h
    have hi : g.invocation? p = some i := invocation?_eq hi
    have hj : g'.invocation? p = some j := invocation?_eq hu
    have hwork := work_eq hi
    rcases hw.work (work_eq hj) with ⟨i', hi', -, htok, -⟩ | ⟨hnone, -⟩
    · cases hwork.symm.trans hi'
      exact htok.symm
    · cases hwork.symm.trans hnone
  · simp [hn p hge] at hi

theorem Run.concludes (hn : g₁.Numbered) (hr : Run g₁ ms g)
    (h₁ : g₁.process? p = some (.subscription (.running i₁)))
    (hu : g.process? p = some (.subscription u)) :
    (∃ i, u = .running i ∧ i.token = i₁.token) ∨ u.IsOver ∧ ∃ before m after i e,
      ms = before ++ m :: after ∧ m.Concludes p i e ∧ i.token = i₁.token := by
  have hp : p < g₁.nextProcess := by
    by_contra hge
    simp [hn p (Nat.not_lt.mp hge)] at h₁
  induction hr generalizing u with
  | nil =>
      cases h₁.symm.trans hu
      exact .inl ⟨i₁, rfl, rfl⟩
  | @snoc ms g a g' hrun hstep ih =>
      have hng := hrun.numbered hn
      obtain ⟨v, hv⟩ := subscription_of_perform hng hstep (Nat.lt_of_lt_of_le hp (hrun.grown hn)) hu
      rcases ih hv with ⟨i, rfl, htok⟩ | ⟨hover, before, m, after, i, e, rfl, hc, htok⟩
      · have hi : g.invocation? p = some i := invocation?_eq hv
        by_cases ha : a = .control p
        · subst ha
          obtain ⟨v, g₂, hv', hsub, -⟩ := subscription_of_control hstep hu
          cases hv.symm.trans hv'
          obtain ⟨e, he, -⟩ := Option.map_eq_some_iff.mp hsub
          exact .inr ⟨isOver_subscription? hsub, ms, ⟨g, .control p, g'⟩, [], i, e, by simp,
            ⟨rfl, hi, he⟩, htok⟩
        · obtain ⟨j, rfl, hsame⟩ := running_of_others hng hstep ha hv hu
          exact .inl ⟨j, rfl, hsame.trans htok⟩
      · refine .inr ⟨?_, before, m, after ++ [⟨g, a, g'⟩], i, e, by simp, hc, htok⟩
        by_cases ha : a = .control p
        · subst ha
          obtain ⟨v, g₂, -, hsub, -⟩ := subscription_of_control hstep hu
          exact isOver_subscription? hsub
        · rcases kindred_perform hng hstep ha hu with ⟨x, hx, hk⟩ | ⟨hge, -⟩
          · cases hv.symm.trans hx
            cases hk.of_over hover
            exact hover
          · simp [hng p hge] at hv

theorem History.tells (hh : History before ds m.before) (h₀ : g₀.IsNew) (hr : Run g₀ ms g)
    (hms : ms = before ++ m :: after) (hc : m.Concludes p i e) (hs : i.subscriber = some s)
    (hu : g.process? p = some (.subscription u)) (hserved : g.IsServed s.session) :
    .lost p i.token ∉ ds ∧ ∃ left, u.Owes s.session left ∧
      ms.flatMap (Moment.sent p s.session) ++ left =
        toldIn ds p ++ m.before.closingReport i e s := by
  obtain ⟨hrun, hstep, hrest⟩ := hr.split hms
  have hi := hc.2.1
  have hn : m.after.Numbered := (hrun.snoc hstep).numbered h₀.numbered
  have hl := hh.opened p i s hi hs
  have hl' := lt_of_perform hh.numbered hstep hl
  have hopen : g.IsOpen s.session := hr.isOpen_of_served h₀ hserved
  have hlt : p < m.before.nextProcess := by
    by_contra hge
    simp [invocation?, hh.numbered p (Nat.not_lt.mp hge)] at hi
  have hlt' : p < m.after.nextProcess :=
    Nat.lt_of_lt_of_le hlt (simulated_perform hh.numbered hstep).spares.grown
  obtain ⟨v, hv⟩ := hrest.subscription hn hlt' hu
  obtain ⟨u₀, hu₀⟩ := subscription_of_perform hh.numbered hstep hlt hv
  obtain ⟨u', hu', howes⟩ := subscription_concluded hstep hc hu₀ hs
  obtain ⟨left, hleft, hthen⟩ := hrest.owes hn hl' hu' howes hu
  refine ⟨fun hlost => ?_, left, hleft, ?_⟩
  · refine hh.lost p i s hi hs hlost (isOpen_of_perform hh.numbered hstep hl ?_)
    exact hrest.isOpen hn hl' hopen
  · rw [hms, List.flatMap_append, List.flatMap_cons, sent_concluded hstep hc, List.nil_append,
      hh.sent p i s hi hs, List.append_assoc, hthen hopen]

def Update.canceled (id timestamp : String) : Update :=
  .status ⟨id, { state := .canceled, timestamp := some timestamp }, true⟩

theorem Run.relayed (h₀ : g₀.IsNew) (hr : Run g₀ ms g) (hb : b ∈ ms)
    (ha : b.Accepts .tasksSendSubscribe q s params task)
    (hu : g.process? b.before.nextProcess = some (.subscription u)) (hover : u.IsOver)
    (hserved : g.IsServed s.session) :
    let emitted := ms.flatMap (Moment.emitted b.before.nextToken)
    let sent := ms.flatMap (Moment.sent b.before.nextProcess s.session)
    ∃ m ∈ ms, ∃ (i : Invocation) (e : Ending), m.Concludes b.before.nextProcess i e ∧
      i.token = b.before.nextToken ∧
      let told := emitted ++ if e = .failed .cancelled then
        [Update.canceled task.id m.before.timestamp] else []
      ClosedBy told ∧ ∃ left, u.Owes s.session left ∧
        sent ++ left = told.map (Update.toMessage s.request) := by
  intro emitted sent
  obtain ⟨pre, post, hms⟩ := List.append_of_mem hb
  obtain ⟨hrun, hstep, hrest⟩ := hr.split hms
  have hn : b.after.Numbered := (hrun.snoc hstep).numbered h₀.numbered
  obtain ⟨ds₀, hh₀⟩ := hrun.history h₀
  obtain ⟨i₀, hstarts, hsub₀, hproc⟩ := hh₀.start_subscribe hstep ha
  -- the invocation that begins there has been closed since
  obtain ⟨between, m, after, i, e, rfl, hc, htok⟩ :=
    ((hrest.concludes hn hproc hu).resolve_left (by
      rintro ⟨j, rfl, -⟩
      exact hover)).2
  have hms : ms = (pre ++ b :: between) ++ m :: after := by simp [hms]
  obtain ⟨hrun, hstep, hrest⟩ := hr.split hms
  obtain ⟨-, hsub, ds, folded, hh, hp⟩ := hrun.stems h₀ hstarts hc.2.1 htok
  have hs : i.subscriber = some s := hsub.trans hsub₀
  have hk : i.token = b.before.nextToken := htok.trans hstarts.token
  obtain ⟨hlost, left, hleft, hsent⟩ := hh.tells h₀ hr hms hc hs hu hserved
  -- nothing is emitted after that
  have hemitted : emitted = emittedIn ds i.token := by
    have hmute : after.flatMap (Moment.emitted i.token) = [] :=
      hrest.muted ((hrun.snoc hstep).numbered h₀.numbered)
        (Nat.lt_of_lt_of_le (hh.token_lt hc.2.1) ((Run.single hstep).nextToken_le hh.numbered))
        fun q j hj => hh.token_free hstep hc hj
    have hnone : m.emitted i.token = [] := by rw [Moment.emitted, hc.1]
    simp only [emitted, ← hk]
    rw [hms, List.flatMap_append, List.flatMap_cons, hmute, hnone, hh.emitted]
    simp
  obtain ⟨-, hfolded, htold⟩ := hp.emptied hc.2.2 hlost
  have hfolded : emittedIn ds i.token = folded := hfolded
  refine ⟨m, by simp [hms], i, e, hc, hk, ?_, left, hleft, ?_⟩
  · rw [hemitted]
    rcases hp.closedBy hc.2.2 with ⟨rfl, hopen⟩ | ⟨hne, hclosed⟩
    · rw [if_pos rfl]
      exact ⟨_, _, rfl, rfl, hopen⟩
    · rw [if_neg hne, List.append_nil]
      exact hclosed
  · rw [hemitted, hfolded, List.map_append, ← htold s hs, ← hp.task]
    refine hsent.trans (congrArg _ ?_)
    unfold closingReport
    split <;> rfl

theorem Run.relaying (h₀ : g₀.IsNew) (hr : Run g₀ ms g) (hb : b ∈ ms)
    (ha : b.Accepts .tasksSendSubscribe q s params task)
    (hu : g.process? b.before.nextProcess = some (.subscription u)) (hne : u ≠ .done)
    (hserved : g.IsServed s.session) :
    ms.flatMap (Moment.sent b.before.nextProcess s.session) <+:
      (ms.flatMap (Moment.emitted b.before.nextToken)).map (Update.toMessage s.request) := by
  cases u with
  | running i =>
      obtain ⟨pre, post, rfl⟩ := List.append_of_mem hb
      obtain ⟨hrun, hstep, hrest⟩ := hr.split rfl
      obtain ⟨ds₀, hh₀⟩ := hrun.history h₀
      obtain ⟨i₀, hstarts, hsub₀, hproc⟩ := hh₀.start_subscribe hstep ha
      have hi : g.invocation? b.before.nextProcess = some i := invocation?_eq hu
      obtain ⟨j, hj, htok⟩ := (hrest.concludes ((hrun.snoc hstep).numbered h₀.numbered) hproc
        hu).resolve_right fun hover => hover.1
      cases hj
      obtain ⟨-, hsub, ds, folded, hh, hp⟩ := hr.stems h₀ hstarts hi htok
      have hs : i.subscriber = some s := hsub.trans hsub₀
      have hk : i.token = b.before.nextToken := htok.trans hstarts.token
      have hkept : emittedIn ds i.token = folded ++ i.queue := hp.kept
      have hconsumed : i.Consumed (.lost b.before.nextProcess i.token ∈ ds)
        (toldIn ds b.before.nextProcess) folded := hp.consumed
      rw [hh.sent _ i s hi hs, ← hk, hh.emitted, hkept, List.map_append]
      unfold Invocation.Consumed at hconsumed
      split at hconsumed
      · rw [hconsumed s hs]
        exact List.prefix_append ..
      · obtain ⟨before, u, rfl, htold, -⟩ := hconsumed
        rw [htold s hs, List.map_append, List.append_assoc]
        exact List.prefix_append ..
      · rcases hconsumed with ⟨hlost, -⟩ | ⟨-, -, htold⟩
        · exact absurd (hr.isOpen_of_served h₀ hserved) (hh.lost _ i s hi hs hlost)
        · rw [htold s hs]
          exact List.prefix_append ..
  | closing r d =>
      obtain ⟨m, -, i, e, -, -, -, left, ⟨-, rfl⟩, hsent⟩ :=
        hr.relayed h₀ hb ha hu trivial hserved
      rw [List.map_append] at hsent
      -- the one message that is owed is the last one
      split at hsent
      · exact ⟨[], by rw [List.append_nil, (List.append_inj' hsent rfl).1]⟩
      · exact ⟨[d.message], by rw [hsent, List.map_nil, List.append_nil]⟩
  | done => exact absurd rfl hne

/-- A subscription to which a peer has been let in, on a session that is still open and whose
receiver is still there, has sent the updates of its executor as they were emitted, and one more
exactly if the executor has been cancelled; each under the id of the request, and the last one, no
other, closes the stream. -/
theorem streamed (h₀ : g₀.IsNew) (hr : Run g₀ ms g) (hb : b ∈ ms)
    (ha : b.Accepts .tasksSendSubscribe q s params task)
    (hdone : g.process? b.before.nextProcess = some (.subscription .done))
    (hserved : g.IsServed s.session) :
    let emitted := ms.flatMap (Moment.emitted b.before.nextToken)
    let sent := ms.flatMap (Moment.sent b.before.nextProcess s.session)
    (∃ m ∈ ms, ∃ (i : Invocation) (e : Ending), m.Concludes b.before.nextProcess i e ∧
      i.token = b.before.nextToken ∧
      sent = (emitted ++ if e = .failed .cancelled then
        [Update.canceled task.id m.before.timestamp] else []).map (Update.toMessage s.request)) ∧
    (∀ x ∈ sent, x.id = some s.request) ∧
    ∃ init last, sent = init ++ [last] ∧ last.IsClosing ∧ ∀ x ∈ init, ¬ x.IsClosing := by
  intro emitted sent
  obtain ⟨m, hm, i, e, hc, hk, hclosed, left, hleft, hsent⟩ :=
    hr.relayed h₀ hb ha hdone trivial hserved
  obtain rfl : left = [] := hleft
  rw [List.append_nil] at hsent
  refine ⟨⟨m, hm, i, e, hc, hk, hsent⟩, fun x hx => ?_, ?_⟩
  · have hx : x ∈ ms.flatMap (Moment.sent b.before.nextProcess s.session) := hx
    rw [hsent] at hx
    obtain ⟨u, -, rfl⟩ := List.mem_map.mp hx
    exact Update.id_toMessage
  · obtain ⟨init, last, hmessages, hclosing⟩ := hclosed.messages
    exact ⟨init, last, hsent.trans hmessages, hclosing⟩

end Run

theorem streamed_canceled : ∃ ms g b q s params task, Run (Gateway.new {} []) ms g ∧ b ∈ ms ∧
    b.Accepts .tasksSendSubscribe q s params task ∧
    g.process? b.before.nextProcess = some (.subscription .done) ∧ g.IsServed s.session ∧
    (ms.flatMap (Moment.emitted b.before.nextToken)).length = 2 ∧
    ∃ init last, ms.flatMap (Moment.sent b.before.nextProcess s.session) = init ++ [last] ∧
      last.IsClosing := by
  obtain ⟨ms, g, hr, -, h⟩ := Run.exists_of_replay
    (Act.subscribing "stream(3)" ++ List.replicate 7 (.produce 1) ++
      [.submit "a" (.request (.number 2) "tasks/cancel" (some (.ofFields [("id", .string "t")]))),
        .control 2, .produce 1] ++ List.replicate 5 (.consume 1) ++ List.replicate 2 (.control 1))
    (Gateway.new {} [])
    (fun ms g => ms.any fun b => b.admits .tasksSendSubscribe fun _ s _ =>
      ((g.process? b.before.nextProcess).any fun x => x matches .subscription .done) ∧
      ((g.session? s.session).any fun s => s.status ≠ .closed ∧ s.outbound.receiving = true) ∧
      (ms.flatMap (Moment.emitted b.before.nextToken)).length = 2)
    (by decide +kernel)
  obtain ⟨b, hb, h⟩ := List.any_eq_true.mp h
  obtain ⟨q, s, params, task, ha, h⟩ := Moment.exists_of_admits h
  simp only [Option.any_eq_true, decide_eq_true_eq] at h
  obtain ⟨⟨x, hx, hdone⟩, hserved, hlength⟩ := h
  have hdone : g.process? b.before.nextProcess = some (.subscription .done) := by
    split at hdone
    · exact hx
    · cases hdone
  obtain ⟨-, -, init, last, hsent, hlast, -⟩ :=
    streamed ⟨{}, [], 0, rfl⟩ hr hb ha hdone hserved
  exact ⟨ms, g, b, q, s, params, task, hr, hb, ha, hdone, hserved, hlength, init, last, hsent,
    hlast⟩

end AgentGateway
