import AgentGateway.Proofs.Sending
import AgentGateway.Proofs.Worked

namespace AgentGateway

def Act.process? : Act → Option ProcessId
  | .feed p _ | .hangUp p | .takePages p | .cancelPages p | .stopSweeper p | .abort p
  | .produce p | .consume p | .listen p | .swapSides p | .control p | .settleTool p _ => some p
  | _ => none

namespace Moment

def emitted (k : Token) (m : Moment) : List Update :=
  match m.act with
  | .produce p =>
    match m.before.invocation? p, m.after.invocation? p with
    | some i, some j => if i.token = k then j.queue.drop i.queue.length else []
    | _, _ => []
  | _ => []

def sent (p : ProcessId) (r : SessionRef) (m : Moment) : List Message :=
  match m.act with
  | .consume q | .control q =>
    if q = p then (m.after.outbox r).drop (m.before.outbox r).length else []
  | _ => []

structure Shows (m : Moment) (d : Deed) : Prop where
  emitted : ∀ k, m.emitted k = d.emissions k
  sent : ∀ p i s, m.before.invocation? p = some i → i.subscriber = some s →
    m.sent p s.session = d.messages p
  began : ∀ p s k t, d = .began p (some s) k t →
    m.before.nextProcess ≤ p ∧ s.session < m.before.sessions.length
  caused : ∀ p s k t, d = .began p s k t → ∃ q, m.act = .control q
  lost : ∀ p k i s, d = .lost p k → m.before.invocation? p = some i → i.subscriber = some s →
    ¬ m.before.IsOpen s.session
  concluded : ∀ p, d = .concluded p → m.act = .control p

end Moment

namespace Gateway

open Function (update)

variable {g g' g₁ : Gateway} {p q : ProcessId} {x y : Process} {i : Invocation} {a : Act}

structure Simulated (a : Act) (g g' : Gateway) : Prop where
  spares : Spares a.process? g g'
  step : ∃ d, Workshop.Step g.workshop d g'.workshop ∧ Moment.Shows ⟨g, a, g'⟩ d

def IsMute (a : Act) : Prop :=
  match a with
  | .produce _ | .consume _ | .control _ => False
  | _ => True

theorem emitted_mute (ha : IsMute a) (k : Token) : Moment.emitted k ⟨g, a, g'⟩ = [] := by
  cases a <;> first | rfl | exact ha.elim

theorem sent_mute (ha : IsMute a) (p : ProcessId) (r : SessionRef) :
    Moment.sent p r ⟨g, a, g'⟩ = [] := by
  cases a <;> first | rfl | exact ha.elim

theorem shows_mute {d : Deed} (ha : IsMute a) (he : ∀ k, d.emissions k = [])
    (hs : ∀ p, d.messages p = []) (hb : ∀ p s k t, d ≠ .began p s k t)
    (hl : ∀ p k, d ≠ .lost p k) (hc : ∀ p, d ≠ .concluded p) : Moment.Shows ⟨g, a, g'⟩ d where
  emitted k := (emitted_mute ha k).trans (he k).symm
  sent p _ s _ _ := (sent_mute ha p s.session).trans (hs p).symm
  began p s k t h := absurd h (hb p s k t)
  caused p s k t h := absurd h (hb p s k t)
  lost p k _ _ h := absurd h (hl p k)
  concluded p h := absurd h (hc p)

theorem shows_silent (ha : IsMute a) : Moment.Shows ⟨g, a, g'⟩ .silent :=
  shows_mute ha (fun _ => rfl) (fun _ => rfl) (by simp) (by simp) (by simp)

theorem simulated_mute (ha : IsMute a) (hs : Spares a.process? g g')
    (hw : Workshop.Step g.workshop .silent g'.workshop) : Simulated a g g' :=
  ⟨hs, .silent, hw, shows_silent ha⟩

theorem simulated_rest (ha : IsMute a) (hs : Spares a.process? g g')
    (hw : g'.workshop = g.workshop) : Simulated a g g' :=
  simulated_mute ha hs (hw ▸ .rest)

theorem simulated_of_inner (hn : g.Numbered) (ha : IsMute a) (h : g'.inner = g.inner) :
    Simulated a g g' :=
  simulated_rest ha (spares_of_inner hn h) (workshop_of_inner h)

theorem simulated_spawn (hn : g.Numbered) (ha : IsMute a) (hi : x.invocation? = none)
    (ht : x.ownToken? = none) (hh : x.handle? = none) : Simulated a g (g.spawn x).2 :=
  simulated_rest ha (spares_spawn hn hh) (workshop_spawn_idle hn hi ht)

theorem simulated_watch (hn : g.Numbered) (ha : IsMute a) (hi : x.invocation? = none)
    (ht : x.ownToken? = some g.nextToken) (hh : x.handle? = none) :
    Simulated a g ({ g with nextToken := g.nextToken + 1 }.spawn x).2 := by
  have hn₁ : { g with nextToken := g.nextToken + 1 }.Numbered := hn
  have hfree : g.process? g.nextProcess = none := hn _ (Nat.le_refl _)
  have hidle : g.workshop.work g.nextProcess = none := by simp [workshop, invocation?, hfree]
  have hs : Spares a.process? g ({ g with nextToken := g.nextToken + 1 }.spawn x).2 := by
    obtain ⟨h₁, h₂, h₃, h₄⟩ := spares_spawn (o := a.process?) hn₁ hh
    exact ⟨h₁, h₂, h₃, h₄⟩
  refine simulated_mute ha hs ?_
  have hwork : update g.workshop.work g.nextProcess none = g.workshop.work := by
    rw [← hidle, Function.update_eq_self]
  rw [workshop_spawn hn₁, hi, ht]
  change Workshop.Step g.workshop .silent
    { g.workshop with
      nextToken := g.nextToken + 1
      work := update g.workshop.work g.nextProcess none
      watch := update g.workshop.watch g.nextProcess (some g.nextToken) }
  rw [hwork]
  exact .watched _ hidle

theorem simulated_signal (hn : g.Numbered) (ha : IsMute a) {k : Token} (hx : g.process? p = some x)
    (ht : x.ownToken? = some k) : Simulated a g (g.signal k) := by
  refine simulated_mute ha (spares_signal hn) ?_
  rw [workshop_signal]
  refine .halted (p := p) ?_
  simp [workshop, hx, ht]

theorem simulated_setProcess (hn : g.Numbered) (ha : IsMute a) (hp : a.process? = some p)
    (hx : g.process? p = some x) (hi : y.invocation? = x.invocation?)
    (ht : y.ownToken? = x.ownToken?) : Simulated a g (g.setProcess p y) :=
  simulated_rest ha (hp ▸ spares_setProcess hn) (workshop_setProcess_same hx hi ht)

theorem simulated_setInvocation (hn : g.Numbered) (ha : IsMute a) (hp : a.process? = some p)
    {j : Invocation} (hj : g.invocation? p = some j) (hi : i.plain = j.plain) :
    Simulated a g (g.setInvocation p i) := by
  refine simulated_rest ha (hp ▸ spares_setInvocation hn) ?_
  rw [workshop_setInvocation hj, hi]
  have hwork : g.workshop.work p = some j.plain := by simp [workshop, hj]
  rw [Workshop.assign, ← hwork, Function.update_eq_self]

theorem Simulated.of_inner (h : Simulated a g g₁) (hi : g'.inner = g₁.inner) (ha : IsMute a) :
    Simulated a g g' := by
  obtain ⟨hs, d, hw, hd⟩ := h
  refine ⟨hs.trans (spares_of_inner hs.numbered hi), d, (workshop_of_inner hi).symm ▸ hw, ?_⟩
  refine ⟨fun k => ?_, fun p i s hp his => ?_, hd.began, fun p s k t hb => ?_, hd.lost,
    hd.concluded⟩
  · rw [emitted_mute ha, ← hd.emitted k, emitted_mute ha]
  · rw [sent_mute ha, ← hd.sent p i s hp his, sent_mute ha]
  · exact hd.caused p s k t hb

theorem simulated_openSession (hn : g.Numbered) {draws : List String} {owner : String}
    {kind : SessionKind} {params : SessionParams}
    (h : g.perform (.openSession draws owner kind params) = some g') :
    Simulated (.openSession draws owner kind params) g g' := by
  simp only [perform, openSession, Option.map_map, Option.map_eq_some_iff] at h
  obtain ⟨id, -, rfl⟩ := h
  exact simulated_of_inner hn trivial rfl

theorem simulated_receive (hn : g.Numbered) {r : SessionRef}
    (h : g.perform (.receive r) = some g') : Simulated (.receive r) g g' := by
  simp only [perform, Option.map_eq_some_iff] at h
  obtain ⟨⟨m, g₁⟩, h, rfl⟩ := h
  obtain ⟨s, -, h⟩ := Option.bind_eq_some_iff.mp h
  obtain ⟨⟨m', woken, outbound⟩, -, h⟩ := Option.bind_eq_some_iff.mp h
  cases h
  exact simulated_of_inner hn trivial ((inner_wakeAll _).trans inner_setSession)

theorem inner_dropReceiver {r : SessionRef} : (g.dropReceiver r).inner = g.inner := by
  unfold dropReceiver
  split
  · rfl
  · exact (inner_wakeAll _).trans inner_setSession

theorem simulated_register (hn : g.Numbered) {r : SessionRef} {id : RequestId} {method : String}
    (h : g.perform (.register r id method) = some g') : Simulated (.register r id method) g g' := by
  obtain ⟨s, -, h⟩ := Option.bind_eq_some_iff.mp h
  refine simulated_of_inner hn trivial ?_
  cases hr : g.register r s id method with
  | error e => simp [hr, Except.map, Except.toOption] at h
  | ok y =>
      obtain ⟨s', -, heq⟩ := bind_eq_ok.mp hr
      cases heq
      rw [hr] at h
      cases h
      rfl

theorem simulated_setInbound (hn : g.Numbered) (ha : IsMute a) (hp : a.process? = some p)
    {l : SessionLoop} {inbound : Channel Message} (hl : g.process? p = some (.sessionLoop l)) :
    Simulated a g (g.setInbound p l inbound) := by
  have hset : Simulated a g (g.setProcess p (.sessionLoop { l with inbound })) :=
    simulated_setProcess hn ha hp hl Process.invocation?_inbound rfl
  unfold setInbound
  dsimp only
  split
  · exact hset.of_inner inner_wake ha
  · exact hset

theorem process?_of_loop? {l : SessionLoop} (h : g.loop? p = some l) :
    g.process? p = some (.sessionLoop l) := by
  unfold loop? at h
  split at h <;> cases h
  assumption

theorem process?_of_walkOf? {w : PageWalk} (h : g.walkOf? p = some w) :
    g.process? p = some (.pages w) := by
  unfold walkOf? at h
  split at h <;> cases h
  assumption

theorem process?_of_sweeper? {s : Sweeper} (h : g.sweeper? p = some s) :
    g.process? p = some (.sweeper s) := by
  unfold sweeper? at h
  split at h <;> cases h
  assumption

theorem inner_abandonEach (rs : List (SessionRef × Delivery)) :
    (rs.foldl (fun g (r, _) => g.abandon p r) g).inner = g.inner := by
  induction rs generalizing g with
  | nil => rfl
  | cons r rs ih => exact ih.trans inner_abandon

theorem inner_release : (g.release p x).inner = g.inner := by
  unfold release
  split
  · exact inner_dropCall
  · exact inner_dropCall
  · exact inner_abandonEach _
  · exact inner_abandon
  · exact inner_abandon
  · exact inner_abandon
  · rename_i i
    cases i.subscriber with
    | none => rfl
    | some s => exact inner_abandon
  · rfl

theorem simulated_abort (hn : g.Numbered) : Simulated (.abort p) g (g.abort p) := by
  unfold abort
  cases hx : g.process? p with
  | none => exact simulated_of_inner hn trivial rfl
  | some x =>
      have hr := spares_of_inner (o := some p) hn (inner_release (p := p) (x := x))
      refine simulated_mute trivial (hr.trans (spares_removeProcess hr.numbered)) ?_
      rw [workshop_removeProcess, workshop_of_inner inner_release]
      exact .dismissed p

theorem work_eq (h : g.invocation? p = some i) : g.workshop.work p = some i.plain := by
  simp [workshop, h]

theorem inner_tellConsumer : (g.tellConsumer p i).2.inner = g.inner := by
  unfold tellConsumer
  split
  · exact inner_wake
  · rfl

theorem desk_tellConsumer : (g.tellConsumer p i).2.desk = g.desk := by
  unfold tellConsumer
  split
  · exact desk_wake
  · rfl

theorem plain_tellConsumer : (g.tellConsumer p i).1.plain = i.plain := by
  unfold tellConsumer
  split <;> rfl

theorem produce?_spec (h : g.produce? p = some g') :
    ∃ (i : Invocation) (u : Option Update) (producer : Producer) (g₁ : Gateway) (j : Invocation),
      g.invocation? p = some i ∧
      i.producer.advance? i.taskId (g.surroundings i) = some (u, producer) ∧
      g₁.inner = g.inner ∧ g₁.desk = g.desk ∧ g' = g₁.setInvocation p j ∧
      j.plain = { i with producer, queue := i.queue ++ u.toList }.plain := by
  obtain ⟨i, hi, h⟩ := Option.bind_eq_some_iff.mp h
  obtain ⟨⟨u, producer⟩, hu, h⟩ := Option.bind_eq_some_iff.mp h
  have htell {i₁ i₂ : Invocation} {g₁ g₂ : Gateway} (hx : g₂.tellConsumer p i₂ = (i₁, g₁)) :
      g₁.inner = g₂.inner ∧ g₁.desk = g₂.desk ∧ i₁.plain = i₂.plain := by
    have hg := inner_tellConsumer (g := g₂) (p := p) (i := i₂)
    have hd := desk_tellConsumer (g := g₂) (p := p) (i := i₂)
    have hi := plain_tellConsumer (g := g₂) (p := p) (i := i₂)
    rw [hx] at hg hd hi
    exact ⟨hg, hd, hi⟩
  refine ⟨i, u, producer, ?_⟩
  cases u with
  | none =>
      dsimp only at h
      split at h
      · generalize hx : tellConsumer p _ _ = x at h
        obtain ⟨j, g₁⟩ := x
        obtain ⟨hg, hd, hj⟩ := htell hx
        exact ⟨g₁, j, hi, hu, hg.trans inner_syncTimer, hd.trans desk_syncTimer,
          (Option.some.inj h).symm, by simp [hj]⟩
      · exact ⟨_, _, hi, hu, inner_syncTimer, desk_syncTimer, (Option.some.inj h).symm, by simp⟩
  | some u =>
      dsimp only at h
      generalize hx : tellConsumer p _ _ = x at h
      obtain ⟨j, g₁⟩ := x
      obtain ⟨hg, hd, hj⟩ := htell hx
      exact ⟨g₁, j, hi, hu, hg.trans inner_syncTimer, hd.trans desk_syncTimer,
        (Option.some.inj h).symm, hj⟩

theorem invocation?_of_inner (h : g'.inner = g.inner) : g'.invocation? p = g.invocation? p := by
  rw [invocation?, invocation?, process?_of_inner h]

theorem invocation?_setInvocation {j : Invocation} (h : g.invocation? p = some j) :
    (g.setInvocation p i).invocation? p = some i := by
  obtain ⟨x, hx, hj⟩ := Option.bind_eq_some_iff.mp h
  simp [invocation?, process?_setInvocation, hx, Process.invocation?_withInvocation, hj]

theorem simulated_produce (hn : g.Numbered) (h : g.produce? p = some g') :
    Simulated (.produce p) g g' := by
  obtain ⟨i, u, producer, g₁, j, hi, hu, hg, -, rfl, hj⟩ := produce?_spec h
  have hi₁ : g₁.invocation? p = some i := (invocation?_of_inner hg).trans hi
  have hs := spares_of_inner (o := some p) hn hg
  refine ⟨hs.trans (spares_setInvocation hs.numbered), .produced i.token u, ?_, ?_⟩
  · rw [workshop_setInvocation hi₁, workshop_of_inner hg, hj]
    have hcancel : (g.surroundings i).cancelled = true ↔ i.token ∈ g.workshop.signalled := by
      simp [surroundings, isSignalled, workshop]
    exact .produced (work_eq hi) hcancel rfl hu
  · refine ⟨fun k => ?_, fun q k s _ _ => rfl, by simp, by simp, by simp, by simp⟩
    have hq : j.queue = i.queue ++ u.toList := (congrArg Invocation.queue hj :)
    simp only [Moment.emitted, hi, invocation?_setInvocation hi₁, hq, List.drop_left]
    rfl

theorem shows_consume {d : Deed} (he : ∀ k, d.emissions k = [])
    (hs : ∀ i s, g.invocation? p = some i → i.subscriber = some s →
      g'.outbox s.session = g.outbox s.session ++ d.messages p)
    (hq : ∀ q, q ≠ p → d.messages q = []) (hb : ∀ q s k t, d ≠ .began q s k t)
    (hl : ∀ q k i s, d = .lost q k → g.invocation? q = some i → i.subscriber = some s →
      ¬ g.IsOpen s.session)
    (hc : ∀ q, d ≠ .concluded q) : Moment.Shows ⟨g, .consume p, g'⟩ d where
  emitted k := (he k).symm
  sent q i s hi his := by
    by_cases hpq : p = q
    · subst hpq
      simp [Moment.sent, hs i s hi his]
    · simp [Moment.sent, hpq, hq q (Ne.symm hpq)]
  began q s k t h := absurd h (hb q s k t)
  caused q s k t h := absurd h (hb q s k t)
  lost := hl
  concluded q h := absurd h (hc q)

theorem shows_consume_silent (h : g'.desk = g.desk) :
    Moment.Shows ⟨g, .consume p, g'⟩ .silent :=
  shows_consume (fun _ => rfl)
    (fun i s _ _ => (outbox_of_desk h).trans (List.append_nil _).symm) (fun _ _ => rfl)
    (by simp) (by simp) (by simp)

theorem simulated_takeUpdate (hn : g.Numbered) {u : Update} {rest : List Update}
    (hi : g.invocation? p = some i) (hc : i.consumer = .receiving) (hq : i.queue = u :: rest) :
    Simulated (.consume p) g (g.takeUpdate p i u rest) := by
  have hwake : (if i.isStuck then g.wake p else g).inner = g.inner := by
    split
    · exact inner_wake
    · rfl
  have hdesk : (if i.isStuck then g.wake p else g).desk = g.desk := by
    split
    · exact desk_wake
    · rfl
  unfold takeUpdate
  generalize (if i.isStuck then g.wake p else g) = g₁ at hwake hdesk
  obtain ⟨t, ht⟩ : ∃ t, g₁.timestamp = t := ⟨_, rfl⟩
  have hstore : { g₁ with store := g₁.store.update i.taskId u t }.inner =
      { g with store := g.store.update i.taskId u t }.inner := by
    rw [store_of_inner hwake]
    exact inner_withStore _ hwake
  have hs : Spares (some p) g { g with store := g.store.update i.taskId u t } :=
    spares_of_processes hn rfl fun _ => rfl
  have hs₁ := hs.trans (spares_of_inner (o := some p) hs.numbered hstore)
  have hi₁ : { g₁ with store := g₁.store.update i.taskId u t }.invocation? p = some i :=
    (invocation?_of_inner hstore).trans hi
  simp only [ht]
  refine ⟨hs₁.trans (spares_setInvocation hs₁.numbered), .silent, ?_, shows_consume_silent hdesk⟩
  rw [workshop_setInvocation hi₁, workshop_of_inner hstore]
  exact .took (work_eq hi) hc hq

theorem simulated_assign (hn : g.Numbered) {d : Deed} {j : Invocation}
    (hg : g₁.inner = g.inner) (hi : g.invocation? p = some i)
    (hstep : Workshop.Step g.workshop d (g.workshop.assign p (some j.plain)))
    (hshow : Moment.Shows ⟨g, .consume p, g₁.setInvocation p j⟩ d) :
    Simulated (.consume p) g (g₁.setInvocation p j) := by
  have hs := spares_of_inner (o := some p) hn hg
  have hi₁ : g₁.invocation? p = some i := (invocation?_of_inner hg).trans hi
  refine ⟨hs.trans (spares_setInvocation hs.numbered), d, ?_, hshow⟩
  rw [workshop_setInvocation hi₁, workshop_of_inner hg]
  exact hstep

theorem simulated_forward (hn : g.Numbered) {s : Subscriber} {d : Delivery}
    (hi : g.invocation? p = some i) (hc : i.consumer = .forwarding d) (hsub : i.subscriber = some s)
    (h : g.forward p i s d = some g') : Simulated (.consume p) g g' := by
  have hdel := delivered_deliver (g := g) (p := p) (r := s.session) d
  have hinner := inner_deliver (g := g) (p := p) (r := s.session) (d := d)
  unfold forward at h
  generalize g.deliver p s.session d = x at h hdel hinner
  obtain ⟨state, g₁⟩ := x
  cases hdel with
  | sent hbox =>
      obtain rfl := Option.some.inj h
      have hstep := Workshop.Step.forwarded (work_eq hi) hc
      rw [if_pos (by simp [hsub])] at hstep
      refine simulated_assign hn hinner hi hstep ?_
      refine shows_consume (fun _ => rfl) (fun i' s' hi' hs' => ?_) (fun q hq => ?_)
        (by simp) (by simp) (by simp)
      · cases hi.symm.trans hi'
        cases hsub.symm.trans hs'
        rw [outbox_of_desk desk_setInvocation, hbox]
        simp [Deed.messages]
      · simp [Deed.messages, Ne.symm hq]
  | pending hbox hd =>
      dsimp only at h
      split at h
      · cases h
      · obtain rfl := Option.some.inj h
        refine simulated_assign hn hinner hi (.waited (work_eq hi) hc hd) ?_
        refine shows_consume (fun _ => rfl) (fun i' s' hi' hs' => ?_) (fun _ _ => rfl)
          (by simp) (by simp) (by simp)
        cases hi.symm.trans hi'
        cases hsub.symm.trans hs'
        rw [outbox_of_desk desk_setInvocation, hbox]
        simp [Deed.messages]
  | failed hclosed =>
      obtain rfl := Option.some.inj h
      have hs := spares_signal (o := some p) (k := i.token) hn
      have hi₁ : (g₁.signal i.token).invocation? p = some i := by
        rcases signal_inner_cases (g := g₁) i.token with h | h
        · exact (invocation?_of_inner h).trans hi
        · exact (invocation?_of_inner h).trans hi
      refine ⟨hs.trans (spares_setInvocation hs.numbered), .lost p i.token, ?_, ?_⟩
      · rw [workshop_setInvocation hi₁, workshop_signal]
        exact .lost (work_eq hi) hc (by simp [hsub])
      · refine shows_consume (fun _ => rfl) (fun i' s' _ _ => ?_) (fun _ _ => rfl)
          (by simp) (fun q k i' s' hq hi' hs' => ?_) (by simp)
        · exact (outbox_of_desk desk_signal).trans (List.append_nil _).symm
        · cases hq
          cases hi.symm.trans hi'
          cases hsub.symm.trans hs'
          exact hclosed

theorem simulated_consume (hn : g.Numbered) (h : g.consume? p = some g') :
    Simulated (.consume p) g g' := by
  obtain ⟨i, hi, h⟩ := Option.bind_eq_some_iff.mp h
  split at h
  · cases h
  · rename_i d hc
    split at h
    · rename_i hsub
      obtain rfl := Option.some.inj h
      have hstep := Workshop.Step.forwarded (work_eq hi) hc
      rw [if_neg (by simp [hsub])] at hstep
      exact simulated_assign hn rfl hi hstep (shows_consume_silent desk_setInvocation)
    · rename_i s hsub
      exact simulated_forward hn hi hc hsub h
  · rename_i hc
    split at h
    · rename_i u rest hq
      obtain rfl := Option.some.inj h
      exact simulated_takeUpdate hn hi hc hq
    · rename_i hq
      split at h
      · rename_i he
        obtain rfl := Option.some.inj h
        exact simulated_assign hn rfl hi (.drained (work_eq hi) hc hq he)
          (shows_consume_silent desk_setInvocation)
      · cases h

theorem invocation?_eq (hx : g.process? p = some x) : g.invocation? p = x.invocation? := by
  simp [invocation?, hx]

theorem shows_control {d : Deed} (he : ∀ k, d.emissions k = []) (hm : ∀ q, d.messages q = [])
    (hs : g.invocation? p = none ∨ g'.desk = g.desk)
    (hb : ∀ q s k t, d = .began q (some s) k t → g.nextProcess ≤ q ∧ s.session < g.sessions.length)
    (hl : ∀ q k, d ≠ .lost q k) (hc : ∀ q, d = .concluded q → q = p) :
    Moment.Shows ⟨g, .control p, g'⟩ d where
  emitted k := (he k).symm
  sent q i s hi his := by
    rw [hm]
    by_cases hpq : p = q
    · subst hpq
      rcases hs with hs | hs
      · cases hs.symm.trans hi
      · simp [Moment.sent, outbox_of_desk hs]
    · simp [Moment.sent, hpq]
  began := hb
  caused _ _ _ _ _ := ⟨p, rfl⟩
  lost q k _ _ h := absurd h (hl q k)
  concluded q h := congrArg Act.control (hc q h).symm

theorem shows_control_silent (hs : g.invocation? p = none) :
    Moment.Shows ⟨g, .control p, g'⟩ .silent :=
  shows_control (fun _ => rfl) (fun _ => rfl) (.inl hs) (by simp) (by simp) (by simp)

variable {h : Handling}

theorem simulated_calm (hn : g.Numbered) (hx : g.process? p = some x) (hxi : x.invocation? = none)
    (hyi : y.invocation? = none) (ht : y.ownToken? = x.ownToken?) (hg : g₁.inner = g.inner) :
    Simulated (.control p) g (g₁.setProcess p y) := by
  have hs := spares_of_inner (o := some p) hn hg
  have hx₁ : g₁.process? p = some x := (process?_of_inner hg).trans hx
  refine ⟨hs.trans (spares_setProcess hs.numbered), .silent, ?_,
    shows_control_silent ((invocation?_eq hx).trans hxi)⟩
  rw [workshop_setProcess_same hx₁ (hyi.trans hxi.symm) ht, workshop_of_inner hg]
  exact .rest

theorem spares_sent (hn : g.Numbered) {store : TaskStore} {o : Option ProcessId} :
    Spares o g (g.sent store) :=
  spares_of_processes hn rfl fun _ => rfl

theorem simulated_started {g₀ : Gateway} {z : Process} {d : Deed}
    (hx : g.process? p = some x) (hxi : x.invocation? = none) (hyi : y.invocation? = none)
    (ht : y.ownToken? = x.ownToken?) (hzh : z.handle? = none)
    (hg : g₁.inner = (g₀.spawn z).2.inner) (hg₀ : Spares none g g₀)
    (hstep : Workshop.Step g.workshop d (g₀.spawn z).2.workshop)
    (hshow : Moment.Shows ⟨g, .control p, g₁.setProcess p y⟩ d) :
    Simulated (.control p) g (g₁.setProcess p y) := by
  have hs₁ : Spares none g g₁ :=
    (hg₀.trans (spares_spawn hg₀.numbered hzh)).trans
      (spares_of_inner (spares_spawn (o := none) hg₀.numbered hzh).numbered hg)
  have hx₁ : g₁.process? p = some x := hs₁.others p x (by simp) hx
  refine ⟨hs₁.of_none.trans (spares_setProcess hs₁.numbered), d, ?_, hshow⟩
  rw [workshop_setProcess_same hx₁ (hyi.trans hxi.symm) ht, workshop_of_inner hg]
  exact hstep

theorem simulated_called (hn : g.Numbered) {z : Process} (hx : g.process? p = some x)
    (hxi : x.invocation? = none) (hyi : y.invocation? = none) (ht : y.ownToken? = x.ownToken?)
    (hzi : z.invocation? = none) (hzt : z.ownToken? = none) (hzh : z.handle? = none)
    (hg : g₁.inner = (g.spawn z).2.inner) :
    Simulated (.control p) g (g₁.setProcess p y) := by
  refine simulated_started (d := .silent) hx hxi hyi ht hzh hg (spares_of_inner hn rfl) ?_
    (shows_control_silent ((invocation?_eq hx).trans hxi))
  rw [workshop_spawn_idle hn hzi hzt]
  exact .rest

theorem simulated_subscribed (hn : g.Numbered) {params : TaskSendParams}
    {headers : List (String × String)} {timestamp : String} {task : Task} {store : TaskStore}
    {delay : Nanos} {peer : Subscriber} (hx : g.process? p = some x) (hxi : x.invocation? = none)
    (hyi : y.invocation? = none) (ht : y.ownToken? = x.ownToken?)
    (hsend : g.store.send params headers g.nextToken timestamp = .ok (task, store))
    (hpeer : peer.session < g.sessions.length)
    (hg : g₁.inner = ((g.sent store).spawn
      (.subscription (.running (.start delay task g.nextToken (some peer))))).2.inner) :
    Simulated (.control p) g (g₁.setProcess p y) := by
  have hfree : g.process? g.nextProcess = none := hn _ (Nat.le_refl _)
  have hwork : g.workshop.work g.nextProcess = none := by simp [workshop, invocation?, hfree]
  have hwatch : g.workshop.watch g.nextProcess = none := by simp [workshop, hfree]
  refine simulated_started (d := .began g.nextProcess (some peer) g.nextToken task) hx hxi hyi ht
    rfl hg (spares_sent hn) ?_ ?_
  · have hsame : update g.workshop.watch g.nextProcess none = g.workshop.watch := by
      rw [← hwatch, Function.update_eq_self]
    have hn' : (g.sent store).Numbered := hn
    rw [workshop_spawn hn']
    change Workshop.Step g.workshop _ { g.workshop with
      store, nextToken := g.nextToken + 1
      work := update g.workshop.work g.nextProcess
        (some (.start delay task g.nextToken (some peer)))
      watch := update g.workshop.watch g.nextProcess none }
    rw [hsame]
    exact .began hwork hwatch hsend
  · refine shows_control (fun _ => rfl) (fun _ => rfl) (.inl ((invocation?_eq hx).trans hxi))
      (fun q s k t h => ?_) (by simp) (by simp)
    cases h
    exact ⟨Nat.le_refl _, hpeer⟩

theorem simulated_began (hn : g.Numbered) {params : TaskSendParams}
    {headers : List (String × String)} {timestamp : String} {task : Task} {store : TaskStore}
    {delay : Nanos} (hx : g.process? p = some x) (hxi : x.invocation? = none)
    (hxt : x.ownToken? = none) (hyi : y.invocation? = some (.start delay task g.nextToken none))
    (hyt : y.ownToken? = none)
    (hsend : g.store.send params headers g.nextToken timestamp = .ok (task, store))
    (hg : g₁.inner = (g.sent store).inner) : Simulated (.control p) g (g₁.setProcess p y) := by
  have hs : Spares (some p) g g₁ := (spares_sent hn).trans (spares_of_inner hn hg)
  have hx₁ : g₁.process? p = some x := (process?_of_inner hg).trans hx
  have hwork : g.workshop.work p = none := by simp [workshop, invocation?, hx, hxi]
  have hwatch : g.workshop.watch p = none := by simp [workshop, hx, hxt]
  refine ⟨hs.trans (spares_setProcess hs.numbered), .began p none g.nextToken task, ?_, ?_⟩
  · rw [workshop_setProcess_work hx₁ (hyt.trans hxt.symm), workshop_of_inner hg, hyi]
    exact .began hwork hwatch hsend
  · exact shows_control (fun _ => rfl) (fun _ => rfl) (.inl ((invocation?_eq hx).trans hxi))
      (by simp) (by simp) (by simp)

theorem spares_cancelled (hn : g.Numbered) {token : Option Token} {store : TaskStore}
    (hg : g₁.inner = { token.elim g (fun k => g.signal k) with store }.inner) :
    Spares none g g₁ := by
  have hsig : Spares none g (token.elim g fun k => g.signal k) := by
    cases token with
    | none => exact spares_of_inner hn rfl
    | some k => exact spares_signal hn
  have hstore : Spares none g { token.elim g (fun k => g.signal k) with store } :=
    ⟨hsig.numbered, hsig.grown, hsig.others, hsig.fresh⟩
  exact hstore.trans (spares_of_inner hstore.numbered hg)

theorem simulated_cancelled (hn : g.Numbered) {id timestamp : String} {task : Task}
    {token : Option Token} {store : TaskStore} (hx : g.process? p = some x)
    (hxi : x.invocation? = none) (hyi : y.invocation? = none) (ht : y.ownToken? = x.ownToken?)
    (hc : g.store.cancel id timestamp = .ok (task, token, store))
    (hg : g₁.inner = { token.elim g (fun k => g.signal k) with store }.inner) :
    Simulated (.control p) g (g₁.setProcess p y) := by
  have hs := spares_cancelled hn hg
  have hx₁ : g₁.process? p = some x := hs.others p x (by simp) hx
  have hshop : g₁.workshop =
      { token.elim g.workshop (fun k => g.workshop.signal k) with store } := by
    rw [workshop_of_inner hg]
    cases token with
    | none => rfl
    | some k => exact congrArg (fun w : Workshop => { w with store }) (workshop_signal (g := g))
  refine ⟨hs.of_none.trans (spares_setProcess hs.numbered), .silent, ?_,
    shows_control_silent ((invocation?_eq hx).trans hxi)⟩
  rw [workshop_setProcess_same hx₁ (hyi.trans hxi.symm) ht, hshop]
  exact .cancelled hc

theorem simulated_concluded (hn : g.Numbered) {e : Ending} (hx : g.process? p = some x)
    (hxi : x.invocation? = some i) (he : i.ending? = some e) (hyi : y.invocation? = none)
    (ht : y.ownToken? = x.ownToken?) :
    Simulated (.control p) g ((g.concludeTask i e).setProcess p y) := by
  have hs : Spares (some p) g (g.concludeTask i e) := spares_of_processes hn rfl fun _ => rfl
  have hi : g.invocation? p = some i := (invocation?_eq hx).trans hxi
  have hx₁ : (g.concludeTask i e).process? p = some x := hx
  refine ⟨hs.trans (spares_setProcess hs.numbered), .concluded p, ?_, ?_⟩
  · rw [workshop_setProcess_work hx₁ ht, hyi]
    exact .concluded (i := i.plain) (work_eq hi) he
  · exact shows_control (fun _ => rfl) (fun _ => rfl) (.inr rfl) (by simp) (by simp) (by simp)

theorem spares_handled (hn : g.Numbered) {h : Handling} (hh : Handled g h g') :
    Spares none g g' := by
  cases hh with
  | calm hg | called hg => exact spares_of_inner hn hg
  | began _ hg => exact (spares_sent hn).trans (spares_of_inner hn hg)
  | @subscribed _ _ _ task store delay peer _ _ _ hg =>
      have hspawn : Spares none g ((g.sent store).spawn
          (.subscription (.running (.start delay task g.nextToken (some peer))))).2 :=
        (spares_sent hn).trans (spares_spawn (spares_sent (o := none) hn).numbered rfl)
      exact hspawn.trans (spares_of_inner hspawn.numbered hg)
  | cancelled _ hg => exact spares_cancelled hn hg

theorem simulated_control (hn : g.Numbered) (h : g.control? p = some g') :
    Simulated (.control p) g g' := by
  obtain ⟨x, y, g₁, hx, hw, rfl⟩ := worked_control? h
  cases hw with
  | calm hxi hyi ht hg => exact simulated_calm hn hx hxi hyi ht hg
  | called hxi hyi ht hzi hzt hzh hg => exact simulated_called hn hx hxi hyi ht hzi hzt hzh hg
  | handled hxi hxt hyi hyt hh =>
      have ht := hyt.trans hxt.symm
      cases hh with
      | calm hg | called hg => exact simulated_calm hn hx hxi hyi ht hg
      | began hsend hg => exact simulated_began hn hx hxi hxt hyi hyt hsend hg
      | subscribed hsend hpeer hg => exact simulated_subscribed hn hx hxi hyi ht hsend hpeer hg
      | cancelled hc hg => exact simulated_cancelled hn hx hxi hyi ht hc hg
  | concluded hxi he hyi ht => exact simulated_concluded hn hx hxi he hyi ht

theorem simulated_perform (hn : g.Numbered) (h : g.perform a = some g') : Simulated a g g' := by
  cases a with
  | openSession => exact simulated_openSession hn h
  | closeSession =>
      cases h
      exact simulated_of_inner hn trivial inner_closeSession
  | shutdown =>
      cases h
      exact simulated_of_inner hn trivial inner_shutdown
  | evictIdle =>
      cases h
      exact simulated_of_inner hn trivial inner_evictIdle
  | submit =>
      cases h
      exact simulated_spawn hn trivial rfl rfl rfl
  | startLoop =>
      cases h
      exact simulated_spawn hn trivial rfl rfl rfl
  | feed p m =>
      cases h
      unfold feed
      cases hl : g.loop? p with
      | none => exact simulated_of_inner hn trivial rfl
      | some l =>
          dsimp only
          split
          · exact simulated_setInbound hn (by trivial) rfl (process?_of_loop? hl)
          · exact simulated_of_inner hn trivial rfl
  | hangUp p =>
      cases h
      unfold hangUp
      cases hl : g.loop? p with
      | none => exact simulated_of_inner hn trivial rfl
      | some l => exact simulated_setInbound hn (by trivial) rfl (process?_of_loop? hl)
  | receive => exact simulated_receive hn h
  | dropReceiver =>
      cases h
      exact simulated_of_inner hn trivial inner_dropReceiver
  | request =>
      cases h
      exact simulated_spawn hn trivial rfl rfl rfl
  | listPages =>
      cases h
      exact simulated_watch hn trivial rfl rfl rfl
  | takePages p =>
      cases h
      unfold takePages
      cases hw : g.walkOf? p with
      | none => exact simulated_of_inner hn trivial rfl
      | some w => exact simulated_setProcess hn trivial rfl (process?_of_walkOf? hw) rfl rfl
  | cancelPages p =>
      cases h
      unfold cancelPages
      cases hw : g.walkOf? p with
      | none => exact simulated_of_inner hn trivial rfl
      | some w => exact simulated_signal hn (by trivial) (process?_of_walkOf? hw) rfl
  | notify =>
      cases h
      exact simulated_spawn hn trivial rfl rfl rfl
  | startSweeper =>
      cases h
      exact simulated_watch hn trivial rfl rfl rfl
  | stopSweeper p =>
      cases h
      unfold stopSweeper
      cases hs : g.sweeper? p with
      | none => exact simulated_of_inner hn trivial rfl
      | some s => exact simulated_signal hn (by trivial) (process?_of_sweeper? hs) rfl
  | abort p =>
      cases h
      exact simulated_abort hn
  | settleTool p poll =>
      cases h
      unfold settleTool
      cases hx : g.process? p with
      | none => exact simulated_of_inner hn trivial rfl
      | some x =>
          have hset : Simulated (.settleTool p poll) g (g.setProcess p (x.settle poll)) :=
            simulated_setProcess hn trivial rfl hx (x.invocation?_settle poll)
              (x.ownToken?_settle poll)
          exact hset.of_inner inner_wake trivial
  | register => exact simulated_register hn h
  | cancelPending =>
      cases h
      exact simulated_of_inner hn trivial inner_cancelPending
  | resolve =>
      cases h
      exact simulated_of_inner hn trivial inner_resolve
  | takeRequestId => exact simulated_of_inner hn trivial (inner_amend h)
  | offer =>
      cases h
      exact simulated_of_inner hn trivial inner_offer
  | shut =>
      cases h
      exact simulated_of_inner hn trivial inner_shut
  | transition => exact simulated_of_inner hn trivial (inner_amend h)
  | touch => exact simulated_of_inner hn trivial (inner_amend h)
  | setOverrides => exact simulated_of_inner hn trivial (inner_amend h)
  | tick | setUptime | reschedule =>
      cases h
      exact simulated_of_inner hn trivial rfl
  | produce p => exact simulated_produce hn h
  | consume p => exact simulated_consume hn h
  | listen p =>
      cases h
      unfold listen
      cases hi : g.invocation? p with
      | none => exact simulated_of_inner hn trivial rfl
      | some i =>
          dsimp only
          split
          · exact simulated_setInvocation hn trivial rfl hi rfl
          · exact simulated_of_inner hn trivial rfl
  | swapSides p =>
      obtain ⟨i, hi, rfl⟩ := Option.map_eq_some_iff.mp h
      exact simulated_setInvocation hn trivial rfl hi rfl
  | control p => exact simulated_control hn h

end Gateway

theorem Gateway.IsNew.numbered {g : Gateway} (h : g.IsNew) : g.Numbered := by
  obtain ⟨settings, tools, epoch, rfl⟩ := h
  exact fun _ _ => rfl

theorem Run.numbered {g₀ g : Gateway} {ms : List Moment} (hn : g₀.Numbered) (h : Run g₀ ms g) :
    g.Numbered := by
  induction h with
  | nil => exact hn
  | snoc _ hstep ih => exact (Gateway.simulated_perform ih hstep).spares.numbered

end AgentGateway
