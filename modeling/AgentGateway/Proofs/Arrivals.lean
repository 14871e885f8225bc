import AgentGateway.Proofs.Loops
/-!
The order in which a loop answers. It takes its messages in the order in which they have come in,
and takes none before all is done that it owes for the one before.
-/

namespace AgentGateway

open Gateway
open Json (Value)

/-- What a loop has made of the messages that have come into it, on its way to a session. -/
structure Gateway.AnswersInOrder (p : ProcessId) (r : SessionRef) (past ms : List Moment)
    (g : Gateway) : Prop where
  inOrder : (Moment.loopLog p r ms).InOrder
  /-- What the loop takes up is handled at once, but for a call of a tool that waits. A request gets
  one reply, or is streamed. -/
  handled : ∀ x ∈ ms, ∀ id m, x.taken? p = some (id, m) →
    (∃ reply, x.returned? p = some reply ∧ (m.isRequest = true → ∃ request, m.id = some request ∧
      ((∃ y, reply = some y ∧ y.Answers request) ∨ reply = none ∧ ∃ peer params task,
        peer.request = request ∧ x.Accepts .tasksSendSubscribe p peer params task))) ∨
    x.returned? p = none ∧ m.isRequest = true ∧ m.methodName = Method.toolsCall.name ∧
      x.after.AwaitsTool p
  /-- The loop waits for a tool, whatever else happens, until that has answered. -/
  waits : ∀ x ∈ ms, x.before.AwaitsTool p →
    (∃ poll, x.act = .settleTool p poll) ∨ x.after.process? p = none ∨ x.after.AwaitsTool p
  rests : ∀ x ∈ ms, x.act = .control p → x.taken? p = none → x.before.Rests x.after
  settled : ∀ done x rest m, ms = done ++ x :: rest → x.fetched? p = some m →
    (Moment.loopLog p r done).Settled
  forked : ∀ done x rest m, ms = done ++ x :: rest → x.fetched? p = some m →
    m.methodName = Method.tasksSend.name →
      (∃ id, x.after.process? x.before.nextProcess = some (.answer id (.handling (.start id m)))) ∧
      ∀ y ∈ past ++ (done ++ [x]), y.before.process? x.before.nextProcess = none
  atRest : ∀ l, g.loop? p = some l → l.stage = .receiving ∨ l.stage = .stopped →
    (Moment.loopLog p r ms).Settled
  ended : g.isLoopOver p = true → (Moment.loopLog p r ms).fetched = (Moment.loopLog p r ms).fed
  /-- Nothing holds the loop up but that there is no message, that a tool has not answered, or that
  there is no room for a reply. -/
  going : ∀ l, g.loop? p = some l → l.stage ≠ .stopped →
    (l.stage = .receiving ∧ l.inbound.queue = [] ∧ l.inbound.attached = true) ∨ g.CanStep p ∨
      g.AwaitsTool p ∨ ∃ d, g.AwaitsRoom p r d

namespace SessionLoop.Tends

variable {id : String} {r : SessionRef} {log : LoopLog} {l : SessionLoop}

theorem inOrder (h : l.Tends id r log) : log.InOrder := by
  obtain ⟨ahead, asked, owed, howes, hleaves⟩ := h.owes
  exact ⟨⟨_, h.arrived.symm⟩, ⟨_, hleaves.started⟩, ⟨_, hleaves.handled⟩, hleaves.returned,
    hleaves.single howes.length_asked, hleaves.met, ⟨_, hleaves.queued⟩⟩

theorem settled (h : l.Tends id r log) (hrest : l.stage = .receiving ∨ l.stage = .stopped) :
    log.Settled := by
  obtain ⟨ahead, asked, owed, howes, hleaves⟩ := h.owes
  obtain ⟨rfl, rfl, rfl⟩ : ahead = [] ∧ asked = [] ∧ owed = [] := by
    rcases hrest with hstage | hstage
    all_goals
      rw [hstage] at howes
      cases howes
      exact ⟨rfl, rfl, rfl⟩
  have hstarted : log.started = log.own := (List.append_nil _).symm.trans hleaves.started
  have hhandled : log.turns.map Prod.fst = log.started :=
    (List.append_nil _).symm.trans hleaves.handled
  exact ⟨hstarted, hhandled.trans hstarted, (List.append_nil _).symm.trans hleaves.queued⟩

end SessionLoop.Tends

section Run

variable {g₀ g₁ g : Gateway} {past ms : List Moment} {p : ProcessId} {r : SessionRef} {s : Session}
  {id : String} {capacity : Nat}

theorem Run.ages (hn : g₁.Numbered) (hr : Run g₁ ms g) : g₁.Ages g := by
  obtain ⟨es, hp, -⟩ := hr.boards hn
  exact hp.ages

theorem Run.find?_open (h₀ : g₀.IsNew) (hpast : Run g₀ past g₁) (hr : Run g₁ ms g)
    (hs : g₁.session? r = some s) (hopen : g.IsOpen r) : ∃ s', g.find? s.id = some (r, s') := by
  have hrun := hpast.append hr
  obtain ⟨s', hs', hage⟩ := hr.ages (hpast.numbered h₀.numbered) r s hs
  obtain ⟨t, ht, hattached, -⟩ := hopen
  cases hs'.symm.trans ht
  have hget := (hrun.registered h₀).get hs' ((hrun.regular h₀ r s' hs').mp hattached)
  rw [hage.named, Gateway.get] at hget
  refine ⟨s', ?_⟩
  split at hget
  · cases hget
    assumption
  · cases hget

theorem Run.tends (h₀ : g₀.IsNew) (hpast : Run g₀ past g₁) (hr : Run g₁ ms g)
    (hl : g₁.process? p = some (.sessionLoop { sessionId := s.id, inbound := { capacity } }))
    (hs : g₁.session? r = some s) (hopen : g.IsOpen r) :
    ∃ l : SessionLoop, l.Tends s.id r (Moment.loopLog p r ms) ∧
      (g.process? p = some (.sessionLoop l) ∨ g.process? p = none) := by
  have hn := hpast.numbered h₀.numbered
  have hlt : p < g₁.nextProcess := by
    by_contra hge
    cases (hn p (Nat.not_lt.mp hge)).symm.trans hl
  induction hr with
  | nil => exact ⟨_, .start, .inl hl⟩
  | @snoc ms g a g' hrun hstep ih =>
      have hng := hrun.numbered hn
      have hopen' := isOpen_of_perform hng hstep (hrun.opened hn (lt_of_session? hs)) hopen
      obtain ⟨l, ht, hp | hgone⟩ := ih hopen'
      · obtain ⟨s', hfind⟩ := hpast.find?_open h₀ hrun hs hopen'
        obtain ⟨e, hshows, ⟨hgone, rfl⟩ | ⟨l', hnext, hl'⟩⟩ :=
          step_perform hng hp ht hopen' hfind hstep
        · exact ⟨l, Moment.loopLog_snoc hshows ▸ ht, .inr hgone⟩
        · exact ⟨l', Moment.loopLog_snoc hshows ▸ ht.step hnext, .inl hl'⟩
      · obtain ⟨hshows, hgone⟩ :=
          gone_perform hng (Nat.lt_of_lt_of_le hlt (hrun.grown hn)) hgone hstep
        exact ⟨l, Moment.loopLog_snoc hshows ▸ ht, .inr hgone⟩

theorem Moment.of_fetched? {x : Moment} {m : Message} (h : x.fetched? p = some m) :
    x.act = .control p ∧ ∃ l woken c, x.before.process? p = some (.sessionLoop l) ∧
      l.stage = .receiving ∧ l.inbound.take? = some (m, woken, c) := by
  unfold fetched? at h
  split at h
  · rename_i q hact
    obtain ⟨rfl, h⟩ := Option.ite_none_right_eq_some.mp h
    obtain ⟨l, hl, h⟩ := Option.bind_eq_some_iff.mp h
    obtain ⟨hstage, h⟩ := Option.ite_none_right_eq_some.mp h
    obtain ⟨⟨m', woken, c⟩, htake, rfl⟩ := Option.map_eq_some_iff.mp h
    exact ⟨hact, l, woken, c, process?_of_loop? hl, hstage, htake⟩
  · cases h

theorem Moment.returned_of_taken {x : Moment} {m : Message} {l : SessionLoop}
    {ahead asked owed : List Message} (hn : x.before.Numbered)
    (hstep : x.before.perform x.act = some x.after)
    (hl : x.before.process? p = some (.sessionLoop l)) (howes : l.stage.Owes r ahead asked owed)
    (htaken : x.taken? p = some (id, m)) :
    (∃ reply, x.returned? p = some reply ∧ (m.isRequest = true → ∃ request, m.id = some request ∧
      ((∃ y, reply = some y ∧ y.Answers request) ∨ reply = none ∧ ∃ peer params task,
        peer.request = request ∧ x.Accepts .tasksSendSubscribe p peer params task))) ∨
    x.returned? p = none ∧ m.isRequest = true ∧ m.methodName = Method.toolsCall.name ∧
      x.after.AwaitsTool p := by
  obtain ⟨hact, hin⟩ := of_taken? htaken
  have hname : m.methodName ≠ Method.tasksSend.name := by
    rw [hl] at hin
    obtain ⟨id', inbound, stage⟩ := l
    cases howes with
    | fetched hname =>
        cases hin
        exact hname
    | _ => cases hin
  obtain ⟨hhandling, hreturned⟩ := of_taking hn hstep htaken
  have returned {reply : Option Message} (hdone : (x.before.handle id m).1 = .done reply) :
      x.returned? p = some reply := by
    rw [hreturned, hdone]
    rfl
  cases hm : m.isRequest with
  | false =>
      obtain ⟨reply, hdone⟩ := handle_unasked (g := x.before) id hm
      exact .inl ⟨reply, returned hdone, by rintro ⟨⟩⟩
  | true =>
      obtain ⟨request, hid, ⟨y, hdone, hanswers⟩ | ⟨hcalling, hcalls⟩ |
          ⟨hdone, peer, params, task, hpeer, haccepts⟩⟩ :=
        answers_or_streams (g := x.before) id hm hname
      · exact .inl ⟨some y, returned hdone, fun _ => ⟨request, hid, .inl ⟨y, rfl, hanswers⟩⟩⟩
      · rw [hcalling] at hhandling hreturned
        exact .inr ⟨hreturned, rfl, hcalls, request, hhandling⟩
      · exact .inl ⟨none, returned hdone, fun _ => ⟨request, hid, .inr ⟨rfl, peer, params, task,
          hpeer, hact, id, m, hin, haccepts⟩⟩⟩

theorem Run.tends_at {x : Moment} {done rest : List Moment} (h₀ : g₀.IsNew)
    (hpast : Run g₀ past g₁) (hr : Run g₁ (done ++ x :: rest) g)
    (hl₁ : g₁.process? p = some (.sessionLoop { sessionId := s.id, inbound := { capacity } }))
    (hs : g₁.session? r = some s) (hopen : g.IsOpen r) (hp : x.before.process? p ≠ none) :
    ∃ l, x.before.process? p = some (.sessionLoop l) ∧ l.Tends s.id r (Moment.loopLog p r done) ∧
      x.before.IsOpen r ∧ ∃ s', x.before.find? s.id = some (r, s') := by
  obtain ⟨hdone, hstep, hrest⟩ := hr.split rfl
  have hn := hpast.numbered h₀.numbered
  have hopen' : x.before.IsOpen r := by
    refine Run.isOpen (hdone.numbered hn) ((Run.single hstep).append hrest) ?_ hopen
    exact hdone.opened hn (lt_of_session? hs)
  obtain ⟨l, ht, hl | hgone⟩ := hpast.tends h₀ hdone hl₁ hs hopen'
  · exact ⟨l, hl, ht, hopen', hpast.find?_open h₀ hdone hs hopen'⟩
  · exact absurd hgone hp

theorem Run.owes_of_mem {x : Moment} (h₀ : g₀.IsNew) (hpast : Run g₀ past g₁) (hr : Run g₁ ms g)
    (hl₁ : g₁.process? p = some (.sessionLoop { sessionId := s.id, inbound := { capacity } }))
    (hs : g₁.session? r = some s) (hopen : g.IsOpen r) (hx : x ∈ ms)
    (hp : ∃ y, x.before.process? p = some y) :
    x.before.Numbered ∧ x.before.perform x.act = some x.after ∧ x.before.IsOpen r ∧
      ∃ l ahead asked owed s', x.before.process? p = some (.sessionLoop l) ∧
        l.stage.Owes r ahead asked owed ∧ x.before.find? l.sessionId = some (r, s') := by
  obtain ⟨done, rest, rfl⟩ := List.append_of_mem hx
  obtain ⟨hdone, hstep, -⟩ := hr.split rfl
  obtain ⟨y, hy⟩ := hp
  obtain ⟨l, hl, ht, hopen', s', hfind⟩ := hpast.tends_at h₀ hr hl₁ hs hopen (by simp [hy])
  obtain ⟨ahead, asked, owed, howes, -⟩ := ht.owes
  exact ⟨hdone.numbered (hpast.numbered h₀.numbered), hstep, hopen', l, ahead, asked, owed, s', hl,
    howes, ht.named ▸ hfind⟩

/-- A loop over a session answers in the order in which its messages come in, as long as the session
is not closed and its transport takes what is queued for the peer. -/
theorem answers_in_order {b : Moment} {before : List Moment} (h₀ : g₀.IsNew)
    (hr : Run g₀ (before ++ b :: ms) g) (hb : b.act = .startLoop id capacity)
    (hfind : b.before.find? id = some (r, s)) (hserved : g.IsServed r) :
    g.AnswersInOrder b.before.nextProcess r (before ++ [b]) ms := by
  obtain ⟨hbefore, hstep, hrest⟩ := hr.split rfl
  have hpast : Run g₀ (before ++ [b]) b.after := hbefore.snoc hstep
  have hn := hpast.numbered h₀.numbered
  have hopen := hr.isOpen_of_served h₀ hserved
  obtain ⟨-, hs, rfl⟩ := find?_spec hfind
  obtain ⟨g₁, a, g'⟩ := b
  obtain rfl : a = .startLoop s.id capacity := hb
  obtain rfl : (g₁.startLoop s.id capacity).2 = g' := Option.some.inj hstep
  have hl₁ : (g₁.startLoop s.id capacity).2.process? g₁.nextProcess =
      some (.sessionLoop { sessionId := s.id, inbound := { capacity } }) :=
    (process?_spawn (hbefore.numbered h₀.numbered)).trans (if_pos rfl)
  have hs₁ : (g₁.startLoop s.id capacity).2.session? r = some s :=
    (session?_of_desk desk_spawn).trans hs
  obtain ⟨l, ht, hl⟩ := hpast.tends h₀ hrest hl₁ hs₁ hopen
  have rest {l' : SessionLoop} (hl' : g.loop? g₁.nextProcess = some l') : l' = l := by
    have hl' := process?_of_loop? hl'
    rcases hl with hl | hgone
    · cases hl'.symm.trans hl
      rfl
    · cases hgone.symm.trans hl'
  constructor
  case inOrder => exact ht.inOrder
  case handled =>
    intro x hx id m htaken
    obtain ⟨y, hy, -⟩ := Option.bind_eq_some_iff.mp (Moment.of_taken? htaken).2
    obtain ⟨hnx, hxstep, -, l', _, _, _, -, hl', howes, -⟩ :=
      hpast.owes_of_mem h₀ hrest hl₁ hs₁ hopen hx ⟨y, hy⟩
    exact Moment.returned_of_taken hnx hxstep hl' howes htaken
  case waits =>
    intro x hx hwaits
    obtain ⟨request, hcalling⟩ := hwaits
    obtain ⟨y, hy, -⟩ := Option.bind_eq_some_iff.mp hcalling
    obtain ⟨hnx, hxstep, -, l', _, _, _, -, hl', howes, -⟩ :=
      hpast.owes_of_mem h₀ hrest hl₁ hs₁ hopen hx ⟨y, hy⟩
    exact awaitsTool_perform hnx hl' howes ⟨request, hcalling⟩ hxstep
  case rests =>
    rintro ⟨g₂, a, g₃⟩ hx hact htaken
    obtain rfl : a = .control g₁.nextProcess := hact
    obtain ⟨done, rest, hms⟩ := List.append_of_mem hx
    obtain ⟨-, hcontrol, -⟩ := hrest.split hms
    obtain ⟨y, hy, -⟩ := Option.bind_eq_some_iff.mp hcontrol
    obtain ⟨hnx, hxstep, hopen', l', _, _, _, s', hl', howes, hfind'⟩ :=
      hpast.owes_of_mem h₀ hrest hl₁ hs₁ hopen hx ⟨y, hy⟩
    obtain ⟨e, -, -, -, hshows, hrests⟩ := step_control hnx hl' howes hopen' hfind' hxstep
    refine hrests (hshows.started.symm.trans ?_)
    rw [Moment.started?, htaken, Option.map_none]
  case settled =>
    rintro done x rest m rfl hfetched
    obtain ⟨-, l', -, -, hl', hstage, -⟩ := Moment.of_fetched? hfetched
    obtain ⟨l', hl'', ht', -⟩ := hpast.tends_at h₀ hrest hl₁ hs₁ hopen (by simp [hl'])
    cases hl'.symm.trans hl''
    exact ht'.settled (.inl hstage)
  case forked =>
    rintro done x rest m rfl hfetched hname
    obtain ⟨hact, l', woken, c, hl', hstage, htake⟩ := Moment.of_fetched? hfetched
    obtain ⟨hdone, hxstep, -⟩ := hrest.split rfl
    rw [hact] at hxstep
    refine ⟨forked_control (hdone.numbered hn) hl' hstage htake hname hxstep, fun y hy => ?_⟩
    rw [← List.append_assoc, List.mem_append] at hy
    rcases hy with hy | hy
    · exact (hpast.append hdone).unborn h₀ (Nat.le_refl _) hy
    · obtain rfl := List.mem_singleton.mp hy
      exact hdone.numbered hn _ (Nat.le_refl _)
  case atRest =>
    intro l' hl' hstage
    obtain rfl := rest hl'
    exact ht.settled hstage
  case ended =>
    intro hover
    obtain ⟨l', hl', hstage⟩ := (Option.any_eq_true ..).mp hover
    obtain rfl := rest hl'
    have harrived := ht.arrived
    rw [(ht.ended (of_decide_eq_true hstage)).1, List.append_nil] at harrived
    exact harrived.symm
  case going =>
    intro l' hl' hstage
    obtain rfl := rest hl'
    obtain ⟨ahead, asked, owed, howes, -⟩ := ht.owes
    exact loop_goes_on (process?_of_loop? hl') howes hstage

end Run

def Tool.waiting : Tool where
  definition := { name := "wait", description := "", inputSchema := Tool.openSchema }
  run _ _ := .pending

/-- What feeds a loop a ping, two messages for tasks and a call of a tool; feeds it another ping while
the tool has not answered; and lets it go on until it waits for room, and then to its end. -/
def Act.attending : List Act :=
  let part : Value := .ofFields [("type", .string "text"), ("text", .string "wait(1s)")]
  let message : Value := .ofFields [("role", .string "user"), ("parts", .array [part])]
  let params (id : String) : Value := .ofFields [("id", .string id), ("message", message)]
  [.openSession ["a"] "owner" .server {}, .startLoop "a" 4,
    .feed 0 (.request (.number 1) "ping" none),
    .feed 0 (.request (.number 2) "tasks/send" (some (params "t"))),
    .feed 0 (.request (.number 3) "tasks/sendSubscribe" (some (params "u"))),
    .feed 0 (.request (.number 4) "tools/call" (some (.ofFields [("name", .string "wait")])))] ++
  List.replicate 13 (.control 0) ++
  [.feed 0 (.request (.number 5) "ping" none), .settleTool 0 (.ok (.text "done"))] ++
  List.replicate 4 (.control 0) ++ [.receive 0] ++ List.replicate 7 (.control 0) ++
  [.receive 0] ++ List.replicate 2 (.control 0)

theorem answers_in_order_waiting : ∃ (before ms : List Moment) (b : Moment) (g : Gateway)
    (s : Session),
    Run (Gateway.new { outboundBuffer := 1 } [.waiting]) (before ++ b :: ms) g ∧
    b.act = .startLoop "a" 4 ∧ b.before.find? "a" = some (0, s) ∧ g.IsServed 0 ∧
    g.AnswersInOrder 0 0 (before ++ [b]) ms ∧
    (Moment.loopLog 0 0 ms).started.map Message.id =
      [some (.number 1), some (.number 3), some (.number 4), some (.number 5)] ∧
    (Moment.loopLog 0 0 (ms.take 18)).returned.length = 2 ∧
    (Moment.loopLog 0 0 ms).queued.map Message.id =
      [some (.number 1), some (.number 4), some (.number 5)] := by
  obtain ⟨ms, g, hr, hacts, h⟩ := Run.exists_of_replay Act.attending
    (Gateway.new { outboundBuffer := 1 } [.waiting])
    (fun ms g => (ms[1]?.any fun b => b.before.nextProcess = 0 ∧
        (b.before.find? "a").any fun found => found.1 = 0) ∧
      ((g.session? 0).any fun s => s.status ≠ .closed ∧ s.outbound.receiving = true) ∧
      (Moment.loopLog 0 0 (ms.drop 2)).started.map Message.id =
        [some (.number 1), some (.number 3), some (.number 4), some (.number 5)] ∧
      (Moment.loopLog 0 0 ((ms.drop 2).take 18)).returned.length = 2 ∧
      (Moment.loopLog 0 0 (ms.drop 2)).queued.map Message.id =
        [some (.number 1), some (.number 4), some (.number 5)])
    (by decide +kernel)
  obtain ⟨hb, hserved, hstarted, hreturned, hqueued⟩ := of_decide_eq_true h
  obtain ⟨b, hb, h⟩ := (Option.any_eq_true ..).mp hb
  obtain ⟨hnext, hfind⟩ := of_decide_eq_true h
  obtain ⟨⟨r, s⟩, hfind, h⟩ := (Option.any_eq_true ..).mp hfind
  obtain rfl : r = 0 := of_decide_eq_true h
  obtain ⟨t, ht, h⟩ := (Option.any_eq_true ..).mp hserved
  obtain ⟨hopen, hreceiving⟩ := of_decide_eq_true h
  have hact : b.act = .startLoop "a" 4 :=
    (Option.some.inj (Moment.act_of_acts hacts hb)).symm
  rw [← take_append_cons_drop hb] at hr
  have hserved : g.IsServed 0 := ⟨t, ht, hopen, hreceiving⟩
  have hinOrder := answers_in_order ⟨_, [.waiting], 0, rfl⟩ hr hact hfind hserved
  rw [hnext] at hinOrder
  exact ⟨_, _, b, g, s, hr, hact, hfind, hserved, hinOrder, hstarted, hreturned, hqueued⟩

end AgentGateway
