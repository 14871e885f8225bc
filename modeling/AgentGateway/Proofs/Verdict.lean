import AgentGateway.Proofs.Emission

namespace AgentGateway

inductive Update.Concludes : Update → Ending → Prop
  | completed {id : String} {timestamp : Option String} :
      Concludes (.status ⟨id, ⟨.completed, none, timestamp⟩, true⟩) (.reached .completed)
  | asked {id : String} {message : Option TaskMessage} {timestamp : Option String} :
      Concludes (.status ⟨id, ⟨.inputRequired, message, timestamp⟩, true⟩)
        (.reached .inputRequired)
  | failed {id reason : String} {timestamp : Option String} :
      Concludes (.status ⟨id, ⟨.failed, some (.agentText reason), timestamp⟩, true⟩)
        (.failed (.internal reason))
  | refused {e : RpcError} : Concludes (.error e) (.failed (.rpc e))

namespace Update.Concludes

variable {u : Update} {e : Ending}

theorem isFinal (h : u.Concludes e) : u.isFinal = true := by cases h <;> rfl

theorem of_untimed (h : u.untimed.Concludes e) : u.Concludes e := by
  cases u with
  | artifact a => cases h
  | error a => exact h
  | status s =>
      obtain ⟨id, ⟨state, message, timestamp⟩, isFinal⟩ := s
      cases h with
      | completed => exact .completed
      | asked => exact .asked
      | failed => exact .failed

theorem untimed (h : u.Concludes e) : u.untimed.Concludes e := by
  cases h with
  | completed => exact .completed
  | asked => exact .asked
  | failed => exact .failed
  | refused => exact .refused

theorem unstopped (h : u.Concludes e) : e ≠ .failed .cancelled ∧ e ≠ .failed .abandoned := by
  cases h <;> simp

end Update.Concludes

def Action.IsOpen : Action → Prop
  | .emit u => u.isFinal = false
  | _ => True

namespace Plan

structure Closes (p : Plan) (before : List Action) (last : Update) : Prop where
  actions : p.actions = before ++ [.emit last]
  isOpen : ∀ a ∈ before, a.IsOpen
  concludes : last.Concludes p.ending

variable {id : String} {p : Plan} {d : Draft} {task : Task} {trigger : TaskMessage}
  {before actions : List Action} {last : Update}

theorem Closes.after (h : p.Closes before last) (ha : ∀ a ∈ actions, a.IsOpen) :
    (p.after actions).Closes (actions ++ before) last where
  actions := by rw [Plan.after, h.actions, List.append_assoc]
  isOpen a hmem := (List.mem_append.mp hmem).elim (ha a) (h.isOpen a)
  concludes := h.concludes

theorem closes_single (h : p.actions = [.emit last]) (hc : last.Concludes p.ending) :
    p.Closes [] last := ⟨h, by simp, hc⟩

theorem isOpen_pauses : ∀ a ∈ d.pauses, a.IsOpen := by
  intro a ha
  unfold Draft.pauses at ha
  cases hd : d.delay with
  | none => simp [hd] at ha
  | some t =>
      rw [hd] at ha
      obtain rfl := List.mem_singleton.mp ha
      trivial

theorem closes_ofCommands (task : Task) (trigger : TaskMessage) (cs : List Command) (d : Draft) :
    ∃ before last, (ofCommands task trigger cs d).Closes before last := by
  induction cs generalizing d with
  | nil =>
      rw [ofCommands]
      refine ⟨_, statusUpdate task.id .completed none true, rfl, ?_, .completed⟩
      intro a ha
      rcases List.mem_append.mp ha with ha | ha
      · exact isOpen_pauses a ha
      · obtain ⟨b, -, rfl⟩ := List.mem_map.mp ha
        rfl
  | cons c cs ih =>
      have hwrap {p : Plan} (hp : ∃ before last, p.Closes before last) :
          ∃ before last, (p.after (.check :: d.pauses)).Closes before last := by
        obtain ⟨before, last, h⟩ := hp
        refine ⟨_, last, h.after fun a ha => ?_⟩
        rcases List.mem_cons.mp ha with rfl | ha
        · trivial
        · exact isOpen_pauses a ha
      have hnext (d : Draft) :
          ∃ before last, ((ofCommands task trigger cs d).after [.check]).Closes before last := by
        obtain ⟨before, last, h⟩ := ih d
        exact ⟨_, last, h.after fun a ha => by simp [List.mem_singleton.mp ha, Action.IsOpen]⟩
      have hfail (reason : String) : ∃ before last, (failing task.id reason).Closes before last :=
        ⟨_, _, closes_single rfl .failed⟩
      cases c with
      | wait ms => exact hwrap (hnext _)
      | respond kind payload =>
          cases hpart : partOf kind payload with
          | ok part =>
              rw [ofCommands, hpart]
              exact hwrap (hnext _)
          | error reason =>
              rw [ofCommands, hpart]
              exact hwrap (hfail reason)
      | ask prompt => exact hwrap ⟨_, _, closes_single rfl .asked⟩
      | stream count =>
          refine hwrap ⟨[.chunks d.nextIndex 0 count], _, rfl, fun a ha => ?_, .completed⟩
          simp [List.mem_singleton.mp ha, Action.IsOpen]
      | error outcome =>
          cases outcome with
          | code n => exact hwrap ⟨_, _, closes_single rfl .refused⟩
          | fail => exact hwrap (hfail _)
      | getHeaders =>
          cases hheaders : task.metadata.headers with
          | some headers =>
              rw [ofCommands, hheaders]
              exact hwrap (hnext _)
          | none =>
              rw [ofCommands, hheaders]
              exact hwrap (hfail _)
      | unknown name => exact hwrap (hnext _)

theorem closes_ofTask (task : Task) : ∃ before last, (ofTask task).Closes before last := by
  have hstart {p : Plan} (hp : ∃ before last, p.Closes before last) : ∃ before last,
      (p.after [.emit (statusUpdate task.id .working (some (.agentText "Parsing task commands"))
        false)]).Closes before last := by
    obtain ⟨before, last, h⟩ := hp
    exact ⟨_, last, h.after fun a ha => by simp [List.mem_singleton.mp ha, Action.IsOpen]; rfl⟩
  unfold ofTask
  cases task.history.getLast? with
  | none => exact hstart ⟨_, _, closes_single rfl .failed⟩
  | some trigger => exact hstart (closes_ofCommands task trigger _ _)

theorem isFinal_of_open (h : ∀ a ∈ actions, a.IsOpen) :
    ∀ u ∈ updatesOf id actions, u.isFinal = false := by
  intro u hu
  obtain ⟨a, ha, hu⟩ := List.mem_flatMap.mp hu
  have hopen := h a ha
  cases a with
  | check | pause d => cases hu
  | emit v =>
      obtain rfl := List.mem_singleton.mp hu
      exact Update.isFinal_untimed.trans hopen
  | chunks index next count =>
      obtain ⟨n, -, rfl⟩ := List.mem_map.mp hu
      rfl

theorem updates_of_closes (h : p.Closes before last) :
    p.updates id = updatesOf id before ++ [last.untimed] := by
  rw [updates, h.actions, updatesOf_append]
  rfl

end Plan

namespace Producer

def Poised (x : Producer) : Prop :=
  (∃ u, x.plan.actions.getLast? = some (.emit u)) ∨
    x.plan.actions = [] ∧ ∀ t, x.stage ≠ .sleeping t

/-- How far a producer has come with a plan, once it has emitted some updates: it is on its way, it
has come to the end, or it has stopped with some of the plan before it. -/
inductive Tracks (id : String) (plan : Plan) (emitted : List Update) (cancelled reading : Bool)
    (x : Producer) : Prop
  | running : x.ending? = none → x.plan.ending = plan.ending → x.Poised →
      emitted.map Update.untimed ++ x.upcoming id = plan.updates id →
      Tracks id plan emitted cancelled reading x
  | ended : x.ending? = some plan.ending → emitted.map Update.untimed = plan.updates id →
      Tracks id plan emitted cancelled reading x
  | stopped {f : Failure} {rest : List Update} : x.ending? = some (.failed f) →
      (f = .cancelled ∧ cancelled = true ∨ f = .abandoned ∧ reading = false) → rest ≠ [] →
      emitted.map Update.untimed ++ rest = plan.updates id →
      Tracks id plan emitted cancelled reading x

variable {id : String} {plan : Plan} {emitted : List Update} {x x' : Producer} {u : Option Update}
  {around : Surroundings} {cancelled reading : Bool}

theorem Poised.last_of_cons {a : Action} {rest : List Action} (h : x.Poised)
    (ha : x.plan.actions = a :: rest) :
    (∃ v, rest.getLast? = some (.emit v)) ∨ rest = [] ∧ ∃ v, a = .emit v := by
  rw [Poised, ha] at h
  rcases h with ⟨v, hv⟩ | ⟨hnil, -⟩
  · cases rest with
    | nil => exact .inr ⟨rfl, v, Option.some.inj hv⟩
    | cons b rest => exact .inl ⟨v, by rwa [List.getLast?_cons_cons] at hv⟩
  · cases hnil

theorem Moves.poised (h : Moves id around x u x') (hp : x.Poised) : x'.Poised := by
  cases h with
  | halted _ _ | deserted _ _ _ | put _ _ _ _ | woke _ _ _ | finished _ _ =>
      exact hp.imp_right fun hnil => ⟨hnil.1, fun _ hs => by cases hs⟩
  | @unrolled index next count rest hs ha =>
      rcases hp.last_of_cons ha with ⟨v, hv⟩ | ⟨-, v, hv⟩
      · exact .inl ⟨v, by simp [goto, List.getLast?_append, hv]⟩
      · cases hv
  | checked hs ha _ | paused hs ha _ =>
      rcases hp.last_of_cons ha with hv | ⟨-, v, hv⟩
      · exact .inl hv
      · cases hv
  | offered hs ha _ =>
      rcases hp.last_of_cons ha with hv | ⟨hnil, -⟩
      · exact .inl hv
      · exact .inr ⟨hnil, fun _ hs => by cases hs⟩

theorem updatesOf_ne_nil {actions : List Action} {v : Update}
    (h : actions.getLast? = some (.emit v)) : updatesOf id actions ≠ [] := by
  obtain ⟨before, rfl⟩ := List.getLast?_eq_some_iff.mp h
  simp [updatesOf, Action.updates]

theorem Poised.upcoming_ne_nil (hp : x.Poised) (hh : x.Heeds) : x.upcoming id ≠ [] := by
  unfold Heeds at hh
  unfold upcoming
  cases hs : x.stage with
  | ready =>
      rw [hs] at hh
      rcases hp with ⟨v, hv⟩ | ⟨hnil, -⟩
      · exact updatesOf_ne_nil hv
      · exact absurd hnil hh
  | emitting v => exact List.cons_ne_nil _ _
  | sleeping t =>
      rcases hp with ⟨v, hv⟩ | ⟨-, hne⟩
      · exact updatesOf_ne_nil hv
      · exact absurd hs (hne t)
  | ended e => rw [hs] at hh; exact hh.elim

theorem tracks_start {delay : Nanos} {task : Task} :
    Tracks task.id (.ofTask task) [] cancelled reading (start delay task) := by
  obtain ⟨before, last, h⟩ := Plan.closes_ofTask task
  refine .running rfl rfl (.inl ⟨last, ?_⟩) rfl
  rw [start, h.actions, List.getLast?_concat]

theorem Tracks.mono {cancelled' reading' : Bool} (h : Tracks id plan emitted cancelled reading x)
    (hc : cancelled = true → cancelled' = true) (hr : reading = false → reading' = false) :
    Tracks id plan emitted cancelled' reading' x := by
  cases h with
  | running hopen hsame hp hw => exact .running hopen hsame hp hw
  | ended he hw => exact .ended he hw
  | stopped he hf hrest hw =>
      exact .stopped he (hf.imp (.imp_right hc) (.imp_right hr)) hrest hw

theorem Moves.tracks (hm : Moves id around x u x')
    (h : Tracks id plan emitted around.cancelled around.hasTaker x) :
    Tracks id plan (emitted ++ u.toList) around.cancelled around.hasTaker x' := by
  cases h with
  | ended he _ | stopped he _ _ _ =>
      rw [hm.unended] at he
      cases he
  | running _ hsame hp hw =>
      cases hm.leads with
      | onward hopen hplan hup =>
          refine .running hopen (hplan.trans hsame) (hm.poised hp) ?_
          rw [List.map_append, List.append_assoc, hup, hw]
      | finished he hu hup =>
          refine .ended (hsame ▸ he) ?_
          rw [hu, Option.toList_none, List.append_nil, ← hw, hup, List.append_nil]
      | stopped he hu hh hf =>
          -- who heeds the token has the plan's last update, at least, before it
          have hrest : x.upcoming id ≠ [] := hp.upcoming_ne_nil hh
          refine .stopped he hf hrest ?_
          rw [hu, Option.toList_none, List.append_nil, hw]

theorem Tracks.of_ended {e : Ending} (h : Tracks id plan emitted cancelled reading x)
    (he : x.ending? = some e) :
    (e = plan.ending ∧ emitted.map Update.untimed = plan.updates id) ∨
      ∃ f rest, e = .failed f ∧
        (f = .cancelled ∧ cancelled = true ∨ f = .abandoned ∧ reading = false) ∧ rest ≠ [] ∧
        emitted.map Update.untimed ++ rest = plan.updates id := by
  cases h with
  | running hopen _ _ _ =>
      rw [hopen] at he
      cases he
  | ended hend hall => exact .inl ⟨Option.some.inj (he.symm.trans hend), hall⟩
  | @stopped f rest hend hf hrest hw =>
      exact .inr ⟨f, rest, Option.some.inj (he.symm.trans hend), hf, hrest, hw⟩

theorem Tracks.isPrefix (h : Tracks id plan emitted cancelled reading x) :
    emitted.map Update.untimed <+: plan.updates id := by
  cases h with
  | running _ _ _ hw => exact ⟨_, hw⟩
  | ended _ hw => exact hw ▸ List.prefix_rfl
  | stopped _ _ _ hw => exact ⟨_, hw⟩

end Producer

end AgentGateway
