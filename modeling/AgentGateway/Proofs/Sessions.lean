import AgentGateway.Proofs.Backlog
import AgentGateway.Proofs.Handled
import AgentGateway.Proofs.Sending

namespace AgentGateway

structure Session.Carries (s s' : Session) : Prop where
  named : s'.id = s.id
  pending : s'.pending = s.pending
  issued : s.nextRequestId ≤ s'.nextRequestId
  advanced : s.status.rank ≤ s'.status.rank
  closed : s'.status = .closed ↔ s.status = .closed
  attached : s'.outbound.attached = s.outbound.attached
  receiving : s'.outbound.receiving = true → s.outbound.receiving = true
  backed : s.outbound.Backed → s'.outbound.Backed

namespace Session

variable {s s' s'' : Session} {r : SessionRef}

theorem Carries.refl (s : Session) : s.Carries s :=
  ⟨rfl, rfl, Int.le_refl _, Nat.le_refl _, .rfl, rfl, fun h => h, fun h => h⟩

theorem Carries.trans (h : s.Carries s') (k : s'.Carries s'') : s.Carries s'' where
  named := k.named.trans h.named
  pending := k.pending.trans h.pending
  issued := Int.le_trans h.issued k.issued
  advanced := Nat.le_trans h.advanced k.advanced
  closed := k.closed.trans h.closed
  attached := k.attached.trans h.attached
  receiving hr := h.receiving (k.receiving hr)
  backed hb := k.backed (h.backed hb)

theorem carries_outbound {c : Channel Message} (ha : c.attached = s.outbound.attached)
    (hr : c.receiving = true → s.outbound.receiving = true)
    (hb : s.outbound.Backed → c.Backed) : s.Carries { s with outbound := c } :=
  ⟨rfl, rfl, Int.le_refl _, Nat.le_refl _, .rfl, ha, hr, hb⟩

theorem carries_takeRequestId : s.Carries s.takeRequestId.2 :=
  ⟨rfl, rfl, Int.le_add_one (Int.le_refl _), Nat.le_refl _, .rfl, rfl, fun h => h, fun h => h⟩

theorem carries_touch {now : Nanos} : s.Carries (s.touch now) :=
  ⟨rfl, rfl, Int.le_refl _, Nat.le_refl _, .rfl, rfl, fun h => h, fun h => h⟩

theorem carries_transition {target : SessionStatus} (h : s.transition target = .ok s') :
    s.Carries s' := by
  unfold transition at h
  split at h
  · cases h
  · rename_i hopen
    split at h
    · cases h
    · rename_i htarget
      cases h
      have hne : target ≠ .closed := fun hc => htarget (.inr hc)
      have hrank : s.status.rank ≤ target.rank := Nat.le_of_not_lt fun hlt => htarget (.inl hlt)
      exact ⟨rfl, rfl, Int.le_refl _, hrank, by simp [hne, hopen], rfl, fun h => h, fun h => h⟩

def screen (v : ValidationSettings) (m : Message) : Except Rejection Unit := do
  Validator.checkMethod v.allowed m
  Validator.checkSize v.maxIdBytes v.maxParamsBytes m

theorem screen_ok {v : ValidationSettings} {m : Message} : screen v m = .ok () ↔
    Validator.checkMethod v.allowed m = .ok () ∧
      Validator.checkSize v.maxIdBytes v.maxParamsBytes m = .ok () := by
  unfold screen
  cases Validator.checkMethod v.allowed m <;> simp [bind, Except.bind]

theorem validate_standard (v : ValidationSettings) (now : Nanos) (s : Session) (m : Message) :
    (Pipeline.standard v).validate now s m =
      match screen v m with
      | .error rejection => (.error rejection, s)
      | .ok _ =>
        let (result, limiters) := (Validator.limitersOf v now s).check v.rounding now
        (result.mapError .throttled, { s with limiters := some limiters }) := by
  simp only [Pipeline.validate, Pipeline.standard, Pipeline.run, Validator.method, Validator.size,
    Validator.throttle, screen]
  cases Validator.checkMethod v.allowed m with
  | error _ => rfl
  | ok _ =>
      simp only [bind, Except.bind]
      cases Validator.checkSize v.maxIdBytes v.maxParamsBytes m with
      | error _ => rfl
      | ok _ =>
          dsimp only
          cases ((Validator.limitersOf v now s).check v.rounding now).1 <;> rfl

theorem validate_eq (v : ValidationSettings) (now : Nanos) (s : Session) (m : Message) :
    ∃ limiters, ((Pipeline.standard v).validate now s m).2 = { s with limiters } := by
  rw [validate_standard]
  split
  · exact ⟨s.limiters, rfl⟩
  · exact ⟨_, rfl⟩

theorem carries_validate {v : ValidationSettings} {now : Nanos} {m : Message} :
    s.Carries ((Pipeline.standard v).validate now s m).2 := by
  obtain ⟨limiters, h⟩ := validate_eq v now s m
  rw [h]
  exact ⟨rfl, rfl, Int.le_refl _, Nat.le_refl _, .rfl, rfl, fun h => h, fun h => h⟩

end Session

namespace Gateway

def CarriedTo : Option Session → Option Session → Prop
  | some s, o => ∃ s', o = some s' ∧ s.Carries s'
  | none, o => ∀ s, o = some s → s.pending = [] ∧
      (s.outbound.attached = true ↔ s.status ≠ .closed) ∧ s.outbound.Backed

structure Carried (g g' : Gateway) : Prop where
  waiters : g'.waiters = g.waiters
  nextTicket : g'.nextTicket = g.nextTicket
  sessions : ∀ r, CarriedTo (g.session? r) (g'.session? r)

variable {g g' g'' : Gateway} {p : ProcessId} {r : SessionRef} {s s' : Session}

theorem Carried.trans (h : Carried g g') (k : Carried g' g'') : Carried g g'' where
  waiters := k.waiters.trans h.waiters
  nextTicket := k.nextTicket.trans h.nextTicket
  sessions r := by
    have h₁ := h.sessions r
    have h₂ := k.sessions r
    cases hs : g.session? r with
    | some s =>
        rw [hs] at h₁
        obtain ⟨s', hs', hc⟩ := h₁
        rw [hs'] at h₂
        obtain ⟨s'', hs'', hc'⟩ := h₂
        exact ⟨s'', hs'', hc.trans hc'⟩
    | none =>
        rw [hs] at h₁
        intro s'' hs''
        cases hs' : g'.session? r with
        | none =>
            rw [hs'] at h₂
            exact h₂ s'' hs''
        | some s' =>
            rw [hs'] at h₂
            obtain ⟨s₂, hs₂, hc⟩ := h₂
            cases hs''.symm.trans hs₂
            obtain ⟨hp, ha, hb⟩ := h₁ s' hs'
            refine ⟨hc.pending.trans hp, ?_, hc.backed hb⟩
            rw [hc.attached, ha, ne_eq, ne_eq, hc.closed]

theorem carried_of_desk (h : g'.desk = g.desk) : Carried g g' where
  waiters := (congrArg Desk.waiters h :)
  nextTicket := (congrArg Desk.nextTicket h :)
  sessions r := by
    rw [session?_of_desk h]
    cases g.session? r with
    | some s => exact ⟨s, rfl, .refl s⟩
    | none => simp [CarriedTo]

theorem Carried.of_desk (h : Carried g g') (hd : g''.desk = g'.desk) : Carried g g'' :=
  h.trans (carried_of_desk hd)

theorem carried_setSession (hs : g.session? r = some s) (hc : s.Carries s') :
    Carried g (g.setSession r s') where
  waiters := rfl
  nextTicket := rfl
  sessions q := by
    have hq : (g.setSession r s').session? q = if q = r then some s' else g.session? q := by
      have hr := lt_of_session? hs
      simp only [session?, setSession, List.getElem?_set]
      by_cases h : q = r
      · simp [h, hr]
      · simp [h, Ne.symm h]
    rw [hq]
    by_cases h : q = r
    · subst h
      rw [hs, if_pos rfl]
      exact ⟨s', rfl, hc⟩
    · rw [if_neg h]
      cases g.session? q with
      | some s => exact ⟨s, rfl, .refl s⟩
      | none => simp [CarriedTo]

theorem carries_offer {c : Channel Message} {m : Message} {o : Offer}
    (h : s.outbound.offer m = (o, c)) : s.Carries { s with outbound := c } := by
  have hb (hold : s.outbound.Backed) : c.Backed := by simpa [h] using hold.offer (a := m)
  unfold Channel.offer at h
  split at h
  · cases h
    exact Session.carries_outbound rfl (fun h => h) hb
  · split at h <;> cases h <;> exact Session.carries_outbound rfl (fun h => h) hb

theorem attached_offerFor {c : Channel Message} {m : Message} :
    (c.offerFor p m).2.attached = c.attached ∧ (c.offerFor p m).2.receiving = c.receiving := by
  unfold Channel.offerFor
  repeat' split
  all_goals exact ⟨rfl, rfl⟩

theorem carries_offerFor {c : Channel Message} {m : Message} {o : Offer}
    (h : s.outbound.offerFor p m = (o, c)) : s.Carries { s with outbound := c } := by
  have hb (hold : s.outbound.Backed) : c.Backed := by
    simpa [h] using hold.offerFor (p := p) (a := m)
  obtain ⟨ha, hr⟩ := attached_offerFor (p := p) (c := s.outbound) (m := m)
  rw [h] at ha hr
  exact Session.carries_outbound ha (fun h => hr ▸ h) hb

theorem attached_grantNext {c : Channel Message} :
    c.grantNext.2.attached = c.attached ∧ c.grantNext.2.receiving = c.receiving := by
  unfold Channel.grantNext
  split <;> exact ⟨rfl, rfl⟩

theorem carries_withdraw {c : Channel Message} {next : Option ProcessId}
    (h : s.outbound.withdraw p = (next, c)) : s.Carries { s with outbound := c } := by
  have hb (hold : s.outbound.Backed) : c.Backed := by simpa [h] using hold.withdraw (p := p)
  unfold Channel.withdraw at h
  split at h
  · obtain ⟨ha, hr⟩ := attached_grantNext
      (c := { s.outbound with granted := s.outbound.granted.erase p })
    rw [h] at ha hr
    exact Session.carries_outbound ha (fun h => hr ▸ h) hb
  · cases h
    exact Session.carries_outbound rfl (fun h => h) hb

theorem carries_take? {c : Channel Message} {m : Message} {next : Option ProcessId}
    (h : s.outbound.take? = some (m, next, c)) : s.Carries { s with outbound := c } := by
  have hb (hold : s.outbound.Backed) : c.Backed := hold.take? h
  unfold Channel.take? at h
  split at h
  · cases h
  · rename_i rest _
    obtain ⟨ha, hr⟩ := attached_grantNext (c := { s.outbound with queue := rest })
    obtain rfl : _ = c := congrArg (fun x => x.2.2) (Option.some.inj h)
    exact Session.carries_outbound ha (fun h => hr ▸ h) hb

theorem carried_offer {m : Message} : Carried g (g.offer r m).2 := by
  unfold offer
  split
  · exact carried_of_desk rfl
  · rename_i s hs
    split
    · exact carried_of_desk rfl
    · split
      · exact carried_of_desk rfl
      · rename_i ho
        exact carried_setSession hs (carries_offer ho)

theorem carried_attempt {m : Message} (hs : g.session? r = some s) : Carried g
    (match s.outbound.offerFor p m with
      | (.sent, outbound) => (DeliveryState.sent, g.setSession r { s with outbound })
      | (.full, outbound) => (.pending (.waiting m), g.setSession r { s with outbound })
      | (.disconnected, _) => (.failed (.disconnected s.id), g)).2 := by
  split
  · rename_i ho
    exact carried_setSession hs (carries_offerFor ho)
  · rename_i ho
    exact carried_setSession hs (carries_offerFor ho)
  · exact carried_of_desk rfl

theorem carried_deliver {d : Delivery} : Carried g (g.deliver p r d).2 := by
  unfold deliver
  cases hs : g.session? r with
  | none => exact carried_of_desk rfl
  | some s =>
      cases d with
      | fresh m =>
          dsimp only
          split
          · exact carried_attempt hs
          · exact carried_of_desk rfl
      | waiting m => exact carried_attempt hs

theorem carried_abandon : Carried g (g.abandon p r) := by
  unfold abandon
  split
  · exact carried_of_desk rfl
  · rename_i s hs
    cases hw : s.outbound.withdraw p with
    | mk next c => exact (carried_setSession hs (carries_withdraw hw)).of_desk (desk_wakeAll _)

theorem carried_receive? {m : Message} (h : g.receive? r = some (m, g')) : Carried g g' := by
  obtain ⟨s, hs, h⟩ := Option.bind_eq_some_iff.mp h
  obtain ⟨⟨m', woken, c⟩, ht, h⟩ := Option.bind_eq_some_iff.mp h
  cases h
  exact (carried_setSession hs (carries_take? ht)).of_desk (desk_wakeAll _)

theorem carried_dropReceiver : Carried g (g.dropReceiver r) := by
  unfold dropReceiver
  split
  · exact carried_of_desk rfl
  · rename_i s hs
    refine (carried_setSession hs ?_).of_desk (desk_wakeAll _)
    exact Session.carries_outbound rfl (by simp) fun _ => Channel.backed_dropReceiver

theorem carried_amend {f : Session → Session} (hf : ∀ s : Session, s.Carries (f s))
    (h : g.amend r f = some g') : Carried g g' := by
  simp only [amend, Option.map_eq_some_iff] at h
  obtain ⟨s, hs, rfl⟩ := h
  exact carried_setSession hs (hf s)

theorem carried_openSession {draws : List String} {owner : String} {kind : SessionKind}
    {params : SessionParams} (h : g.openSession draws owner kind params = some (r, g')) :
    Carried g g' := by
  simp only [openSession, Option.map_eq_some_iff] at h
  obtain ⟨id, -, heq⟩ := h
  cases heq
  refine ⟨rfl, rfl, fun q => ?_⟩
  cases hs : g.session? q with
  | some s =>
      have hq := lt_of_session? hs
      refine ⟨s, ?_, .refl s⟩
      rw [← hs]
      exact List.getElem?_append_left hq
  | none =>
      intro s hs'
      have hq : g.sessions.length ≤ q := List.getElem?_eq_none_iff.mp hs
      have hmem : [Session.opened id owner kind params g.settings.outboundBuffer g.now][
          q - g.sessions.length]? = some s := by
        rw [← hs']
        exact (List.getElem?_append_right hq).symm
      obtain rfl := List.mem_singleton.mp (List.mem_of_getElem? hmem)
      exact ⟨rfl, by simp [Session.opened], fun hw => absurd rfl hw⟩

theorem carried_tellEach (pending : List (SessionRef × Delivery)) (n : Notice) :
    Carried g (g.tellEach p pending n).2.2 := by
  induction pending generalizing g n with
  | nil => exact carried_of_desk rfl
  | cons x pending ih =>
      obtain ⟨r, d⟩ := x
      exact carried_deliver.trans (ih _)

variable {params : Option Json.Value} {v : Json.Value} {name : String} {request : RequestId}
  {method : Method}

theorem carried_connect (h : g.connect r = .ok g') : Carried g g' := by
  unfold connect at h
  split at h
  · rename_i hm
    cases h
    obtain ⟨s₀, hs₀, hmark⟩ := Option.map_eq_some_iff.mp hm
    exact carried_setSession hs₀ (Session.carries_transition hmark)
  · cases h
  · cases h
    exact carried_of_desk rfl

theorem carried_handshake (h : g.handshake r params = .ok (v, g')) : Carried g g' := by
  unfold handshake at h
  cases params with
  | none =>
      obtain ⟨g₁, hc, h⟩ := bind_eq_ok.mp h
      cases h
      exact carried_connect hc
  | some _ =>
      obtain ⟨-, -, h⟩ := bind_eq_ok.mp h
      obtain ⟨g₁, hc, h⟩ := bind_eq_ok.mp h
      cases h
      exact carried_connect hc

theorem carried_setLogLevel (hs : g.session? r = some s)
    (h : g.setLogLevel r s params = .ok (v, g')) : Carried g g' := by
  simp only [setLogLevel, bind_eq_ok] at h
  obtain ⟨level, -, h⟩ := h
  split at h <;> cases h
  exact carried_setSession hs
    ⟨rfl, rfl, Int.le_refl _, Nat.le_refl _, .rfl, rfl, fun h => h, fun h => h⟩

theorem carried_cancelTask (h : g.cancelTask params = .ok (v, g')) : Carried g g' := by
  simp only [cancelTask, bind_eq_ok] at h
  obtain ⟨p, -, ⟨task, token, store⟩, hc, h⟩ := h
  cases h
  cases token with
  | none => exact carried_of_desk rfl
  | some k => exact carried_of_desk (desk_signal (g := g) (k := k))

theorem carried_orElse {x : Except Fault (Json.Value × Gateway)}
    (hx : ∀ v g', x = .ok (v, g') → Carried g g') : Carried g (g.orElse x).2 := by
  cases x with
  | error f => exact carried_of_desk rfl
  | ok y => exact hx _ _ rfl

theorem carried_dispatchTask : Carried g (g.dispatchTask method r s request params).2 := by
  unfold dispatchTask
  split
  · split
    · rename_i hb
      obtain ⟨p, headers, timestamp, task, store, hs, rfl, rfl⟩ := beginTask_spec hb
      exact carried_of_desk rfl
    · exact carried_of_desk rfl
  · split
    · rename_i hb
      obtain ⟨p, headers, timestamp, task, store, hs, rfl, rfl⟩ := beginTask_spec hb
      exact carried_of_desk (desk_spawn (g := g.sent store))
    · exact carried_of_desk rfl
  · exact carried_of_desk rfl
  · exact carried_orElse fun _ _ => carried_cancelTask

theorem carried_dispatchTool (hs : g.session? r = some s) :
    Carried g (g.dispatchTool method r s params).2 := by
  unfold dispatchTool
  split
  case h_11 => exact carried_orElse fun _ _ => carried_setLogLevel hs
  case h_4 | h_7 => split <;> exact carried_of_desk rfl
  all_goals exact carried_of_desk rfl

theorem carried_dispatch (hs : g.session? r = some s) :
    Carried g (g.dispatch name r s request params).2 := by
  unfold dispatch
  split
  · split <;> exact carried_of_desk rfl
  · split
    · split
      · exact carried_of_desk rfl
      · split
        · exact carried_of_desk rfl
        · rename_i g₁ hg₁
          have hg₁ : Carried g g₁ := by
            split at hg₁
            · exact carried_connect hg₁
            · cases hg₁
              exact carried_of_desk rfl
          exact hg₁.trans carried_dispatchTask
    · split
      · exact carried_orElse fun _ _ => carried_handshake
      · split
        · exact carried_of_desk rfl
        · split
          · exact carried_of_desk rfl
          · split
            · exact carried_of_desk rfl
            · exact carried_dispatchTool hs

theorem carried_handleRequest : Carried g (g.handleRequest name r request params).2 := by
  unfold handleRequest
  cases hs : g.session? r with
  | none => exact carried_of_desk rfl
  | some s =>
      have hd : Carried g (g.dispatch name r s request params).2 := carried_dispatch hs
      dsimp only
      split
      all_goals
        rename_i heq
        rw [heq] at hd
        exact hd

theorem carried_handleNotification : Carried g (g.handleNotification name r) := by
  unfold handleNotification
  split
  · cases h : g.connect r with
    | error _ => exact carried_of_desk rfl
    | ok g' => exact carried_connect h
  · exact carried_of_desk rfl

theorem carried_validate {m : Message} (hs : g.session? r = some s) :
    Carried g (g.validate r s m).2 :=
  carried_setSession hs (Session.carries_touch.trans Session.carries_validate)

end Gateway

end AgentGateway
