import AgentGateway.Proofs.Isolation
import AgentGateway.Proofs.Layouts
import AgentGateway.Proofs.Replies
/-!
How sessions get started. Only its peer starts a session: with a handshake, with word that the
handshake is done, or with a request on tasks where these are offered. Until then every other
request but a ping is refused, and of it no more is left than that the session was active and its
rates were drawn on.
-/

namespace AgentGateway

open Json (Value)

def HandshakeParams.Readable (params : Option Value) : Prop :=
  ∀ v, params = some v → ∃ p, HandshakeParams.decode v = .ok p

namespace Message

inductive Starts (settings : GatewaySettings) (m : Message) : Prop
  | handshake {request : RequestId} : m.method = some Method.handshake.name → m.id = some request →
      HandshakeParams.Readable m.params → Starts settings m
  | handshakeDone : m.method = some Method.handshakeDone.name → m.id = none → Starts settings m
  | task {method : Method} {request : RequestId} : m.method = some method.name →
      method.onTasks = true → m.id = some request → settings.tasksEnabled = true → Starts settings m

structure MustWait (request : RequestId) (m : Message) : Prop where
  identified : m.id = some request
  named : ∃ name, m.method = some name ∧ name ≠ Method.handshake.name ∧
    name ≠ Method.ping.name ∧ namesTaskMethod name = false

end Message

theorem Method.ofName?_name (method : Method) : ofName? method.name = some method := by
  cases method <;> rfl

namespace Message

variable {settings : GatewaySettings} {m : Message} {name : String} {request : RequestId}

theorem starts_response (hm : m.method = none) : ¬ m.Starts settings := by
  rintro (⟨h, -, -⟩ | ⟨h, -⟩ | ⟨h, -, -, -⟩) <;> cases hm.symm.trans h

theorem starts_notification (hm : m.method = some name) (hid : m.id = none) :
    m.Starts settings ↔ name = Method.handshakeDone.name := by
  constructor
  · rintro (⟨-, h, -⟩ | ⟨h, -⟩ | ⟨-, -, h, -⟩)
    · cases hid.symm.trans h
    · exact Option.some.inj (hm.symm.trans h)
    · cases hid.symm.trans h
  · rintro rfl
    exact .handshakeDone hm hid

theorem starts_request (hm : m.method = some name) (hid : m.id = some request) :
    m.Starts settings ↔ ∃ method, Method.ofName? name = some method ∧
      (method = .handshake ∧ HandshakeParams.Readable m.params ∨
        method.onTasks = true ∧ settings.tasksEnabled = true) := by
  constructor
  · rintro (⟨h, -, hparams⟩ | ⟨-, h⟩ | @⟨method, -, h, htasks, -, hoffered⟩)
    · obtain rfl := Option.some.inj (hm.symm.trans h)
      exact ⟨_, Method.ofName?_name _, .inl ⟨rfl, hparams⟩⟩
    · cases hid.symm.trans h
    · obtain rfl := Option.some.inj (hm.symm.trans h)
      exact ⟨method, method.ofName?_name, .inr ⟨htasks, hoffered⟩⟩
  · rintro ⟨method, hname, h⟩
    obtain rfl := Method.name_of_ofName? hname
    rcases h with ⟨rfl, hparams⟩ | ⟨htasks, hoffered⟩
    · exact .handshake hm hid hparams
    · exact .task hm htasks hid hoffered

end Message

instance Session.unasked_status : Session.Unasked Session.status where
  pending _ _ := rfl
  outbound _ _ := rfl
  nextRequestId _ _ := rfl

theorem Session.connected_of_moved {s : Session} {target : SessionStatus}
    (h : ((s.transition target).toOption.getD s).status = .connected)
    (htarget : target ≠ .connected) : s.status = .connected := by
  unfold transition at h
  split at h
  · exact h
  · split at h
    · exact h
    · exact absurd h htarget

namespace Gateway

variable {α : Type} {f : Session → α} {g g' g'' : Gateway} {r q : SessionRef} {s s' : Session}
  {m : Message} {name sessionId : String} {request : RequestId} {params : Option Value}
  {v : Value} {method : Method}

def Confined (r : SessionRef) (g g' : Gateway) : Prop := ∀ q, q ≠ r → g'.session? q = g.session? q

theorem Confined.refl : Confined r g g := fun _ _ => rfl

theorem Confined.trans (h : Confined r g g') (k : Confined r g' g'') : Confined r g g'' :=
  fun q hq => (k q hq).trans (h q hq)

theorem confined_setSession : Confined r g (g.setSession r s) :=
  fun _ hq => List.getElem?_set_ne (Ne.symm hq)

theorem confined_of_profile (h : g'.profile id = g.profile id) : Confined r g g' := fun q _ => by
  have hq := mark_of_profile (r := q) h
  rwa [Option.map_id_apply, Option.map_id_apply] at hq

theorem confined_connect (h : g.connect r = .ok g') : Confined r g g' := by
  unfold connect at h
  split at h
  · cases h
    exact confined_setSession
  · cases h
  · cases h
    exact .refl

theorem confined_handshake (h : g.handshake r params = .ok (v, g')) : Confined r g g' := by
  unfold handshake at h
  cases params with
  | none =>
      obtain ⟨g₁, hc, h⟩ := bind_eq_ok.mp h
      cases h
      exact confined_connect hc
  | some _ =>
      obtain ⟨-, -, h⟩ := bind_eq_ok.mp h
      obtain ⟨g₁, hc, h⟩ := bind_eq_ok.mp h
      cases h
      exact confined_connect hc

theorem confined_orElse {x : Except Fault (Value × Gateway)}
    (hx : ∀ v g', x = .ok (v, g') → Confined r g g') : Confined r g (g.orElse x).2 := by
  cases x with
  | error f => exact .refl
  | ok y => exact hx _ _ rfl

theorem confined_setLogLevel (h : g.setLogLevel r s params = .ok (v, g')) : Confined r g g' := by
  simp only [setLogLevel, bind_eq_ok] at h
  obtain ⟨level, -, h⟩ := h
  split at h <;> cases h
  exact confined_setSession

theorem confined_dispatchTool : Confined r g (g.dispatchTool method r s params).2 := by
  unfold dispatchTool
  split
  case h_11 => exact confined_orElse fun _ _ => confined_setLogLevel
  case h_4 | h_7 => split <;> exact .refl
  all_goals exact .refl

theorem confined_dispatch : Confined r g (g.dispatch name r s request params).2 := by
  unfold dispatch
  split
  · split <;> exact .refl
  · split
    · split
      · exact .refl
      · split
        · exact .refl
        · rename_i g₁ hg₁
          refine .trans ?_ (confined_of_profile profile_dispatchTask)
          split at hg₁
          · exact confined_connect hg₁
          · cases hg₁
            exact .refl
    · split
      · exact confined_orElse fun _ _ => confined_handshake
      · split
        · exact .refl
        · split
          · exact .refl
          · split
            · exact .refl
            · exact confined_dispatchTool

theorem confined_handleValid : Confined r g (g.handleValid r m).2 := by
  unfold handleValid
  split
  · unfold resolve
    split
    · exact .refl
    · exact confined_setSession.trans (confined_of_profile profile_settleTicket)
  · unfold handleNotification
    split
    · cases h : g.connect r with
      | error _ => exact .refl
      | ok g' => exact confined_connect h
    · exact .refl
  · unfold handleRequest
    split
    · exact .refl
    · rename_i name request _ _ _ s _
      have hd : Confined r g (g.dispatch name r s request m.params).2 := confined_dispatch
      split
      all_goals
        rename_i h
        rw [h] at hd
        exact hd

theorem confined_handle (hfind : g.find? sessionId = some (r, s)) :
    Confined r g (g.handle sessionId m).2 := by
  have hv : Confined r g (g.validate r s m).2 := confined_setSession
  unfold handle
  rw [get, hfind]
  dsimp only
  split
  · rename_i h
    rw [h] at hv
    exact hv
  · rename_i h
    rw [h] at hv
    exact hv.trans confined_handleValid

def Stands (r : SessionRef) (status : SessionStatus) (g : Gateway) : Prop :=
  (g.session? r).map Session.status = some status

theorem stands_of_profile (h : g'.profile Session.status = g.profile Session.status)
    {status : SessionStatus} : g'.Stands r status ↔ g.Stands r status := by
  rw [Stands, Stands, mark_of_profile h]

theorem handshake_readable (hs : g.session? r = some s) (hc : s.status = .connecting)
    (hp : HandshakeParams.Readable params) :
    g.handshake r params = .ok (greeting g.settings,
      g.setSession r { s with status := .connected }) := by
  cases params with
  | none => exact bind_eq_ok.mpr ⟨_, connect_connecting hs hc, rfl⟩
  | some v =>
      obtain ⟨p, hp⟩ := hp v rfl
      refine bind_eq_ok.mpr ⟨p, mapError_eq_ok.mpr hp, ?_⟩
      exact bind_eq_ok.mpr ⟨_, connect_connecting hs hc, rfl⟩

theorem handshake_unreadable (hp : ¬ HandshakeParams.Readable params) :
    ∃ f, g.handshake r params = .error f := by
  cases h : g.handshake r params with
  | error f => exact ⟨f, rfl⟩
  | ok x =>
      refine absurd (fun v hv => ?_) hp
      subst hv
      obtain ⟨p, hp, -⟩ := bind_eq_ok.mp h
      exact ⟨p, mapError_eq_ok.mp hp⟩

theorem profile_dispatch_starts (hs : g.session? r = some s) (hc : s.status = .connecting)
    (hm : m.method = some name) (hid : m.id = some request) (h : m.Starts g.settings) :
    (g.dispatch name r s request m.params).2.profile f =
      (g.setSession r { s with status := .connected }).profile f := by
  obtain ⟨method, hname, ⟨rfl, hp⟩ | ⟨htasks, hoffered⟩⟩ := (Message.starts_request hm hid).mp h
  · simp [dispatch, hname, Method.onTasks, handshake_readable hs hc hp, orElse]
  · simp [dispatch, hname, htasks, hoffered, hc, connect_connecting hs hc]

theorem dispatch_unstarted (hc : s.status = .connecting) (hm : m.method = some name)
    (hid : m.id = some request) (h : ¬ m.Starts g.settings) :
    (g.dispatch name r s request m.params).2 = g := by
  rw [Message.starts_request hm hid] at h
  unfold dispatch
  split
  · split <;> rfl
  · rename_i method hname
    split
    · rename_i htasks
      have hoffered : g.settings.tasksEnabled ≠ true :=
        fun hoffered => h ⟨method, hname, .inr ⟨htasks, hoffered⟩⟩
      simp [hoffered]
    · split
      · rename_i hmethod
        obtain ⟨f, hf⟩ := handshake_unreadable (g := g) (r := r)
          fun hp => h ⟨method, hname, .inl ⟨hmethod, hp⟩⟩
        rw [hf]
        rfl
      · split
        · rfl
        · rw [if_pos (by simp [hc])]

theorem profile_handleValid_starts (hs : g.session? r = some s) (hc : s.status = .connecting)
    (h : m.Starts g.settings) : (g.handleValid r m).2.profile f =
      (g.setSession r { s with status := .connected }).profile f := by
  unfold handleValid
  split
  · rename_i hm
    exact absurd h (Message.starts_response hm)
  · rename_i hm hid
    rw [(Message.starts_notification hm hid).mp h]
    simp [handleNotification, connect_connecting hs hc, Except.toOption]
  · rename_i request hm hid
    have hd := profile_dispatch_starts (f := f) hs hc hm hid h
    unfold handleRequest
    rw [hs]
    dsimp only
    split
    all_goals
      rename_i h
      rw [h] at hd
      exact hd

theorem profile_handleValid_unstarted [Session.Unawaited f] (hs : g.session? r = some s)
    (hc : s.status = .connecting) (h : ¬ m.Starts g.settings) :
    (g.handleValid r m).2.profile f = g.profile f := by
  unfold handleValid
  split
  · exact profile_resolve
  · rename_i hm hid
    rw [Message.starts_notification hm hid] at h
    simp [handleNotification, h]
  · rename_i request hm hid
    have hd := dispatch_unstarted (r := r) hc hm hid h
    unfold handleRequest
    rw [hs]
    dsimp only
    split
    all_goals
      rename_i h
      rw [h] at hd
      exact congrArg _ hd

theorem dispatch_mustWait (hc : s.status = .connecting) (hhandshake : name ≠ Method.handshake.name)
    (hping : name ≠ Method.ping.name) (htasks : namesTaskMethod name = false) :
    g.dispatch name r s request params =
      (.fault (.invalidRequest "Session not initialized"), g) := by
  unfold dispatch
  split
  · rw [if_neg (by simp [hc])]
  · rename_i method hname
    obtain rfl := Method.name_of_ofName? hname
    have htasks : method.onTasks = false := by simpa [namesTaskMethod, hname] using htasks
    have hhandshake : method ≠ .handshake := by
      rintro rfl
      exact hhandshake rfl
    have hping : method ≠ .ping := by
      rintro rfl
      exact hping rfl
    simp [htasks, hhandshake, hping, hc]

theorem handleValid_mustWait (hs : g.session? r = some s) (hc : s.status = .connecting)
    (h : m.MustWait request) : g.handleValid r m =
      (.done (reply request (.invalidRequest "Session not initialized")), g) := by
  obtain ⟨name, hm, hhandshake, hping, htasks⟩ := h.named
  simp only [handleValid, hm, h.identified, handleRequest, hs,
    dispatch_mustWait hc hhandshake hping htasks]

theorem validate_found (hfind : g.find? sessionId = some (r, s)) (m : Message) :
    ∃ limiters, let s' := { s with lastActivity := g.now, limiters }
      (g.validate r s m).2 = g.setSession r s' ∧ (g.setSession r s').session? r = some s' := by
  obtain ⟨limiters, hs⟩ := Session.validate_eq g.settings.validation g.now (s.touch g.now) m
  exact ⟨limiters, congrArg (g.setSession r) hs, session?_setSession_self (find?_spec hfind).2.1⟩

theorem handle_let_in (hfind : g.find? sessionId = some (r, s))
    (hv : (g.validate r s m).1 = .ok ()) :
    g.handle sessionId m = (g.validate r s m).2.handleValid r m := by
  unfold handle
  rw [get, hfind]
  dsimp only
  split
  · rename_i h
    rw [h] at hv
    cases hv
  · rename_i h
    rw [h]

theorem profile_handle_kept_out (hfind : g.find? sessionId = some (r, s))
    (hv : (g.validate r s m).1 ≠ .ok ()) :
    (g.handle sessionId m).2.profile f = (g.validate r s m).2.profile f := by
  unfold handle
  rw [get, hfind]
  dsimp only
  split
  · rename_i h
    rw [h]
    rfl
  · rename_i h
    rw [h] at hv
    exact absurd rfl hv

theorem stands_handle_started (hfind : g.find? sessionId = some (r, s))
    (hc : s.status = .connecting) (hv : (g.validate r s m).1 = .ok ())
    (h : m.Starts g.settings) : (g.handle sessionId m).2.Stands r .connected := by
  obtain ⟨limiters, hvalid, hs⟩ := validate_found hfind m
  rw [handle_let_in hfind hv, hvalid, stands_of_profile (profile_handleValid_starts hs hc h),
    Stands, session?_setSession_self hs]
  rfl

theorem stands_handle_unstarted (hfind : g.find? sessionId = some (r, s))
    (hc : s.status = .connecting)
    (h : ¬ ((g.validate r s m).1 = .ok () ∧ m.Starts g.settings)) :
    (g.handle sessionId m).2.Stands r .connecting := by
  obtain ⟨limiters, hvalid, hs⟩ := validate_found hfind m
  have hstands : (g.validate r s m).2.Stands r .connecting := by
    rw [hvalid, Stands, hs, ← hc]
    rfl
  by_cases hv : (g.validate r s m).1 = .ok ()
  · have hstarts : ¬ m.Starts g.settings := fun hstarts => h ⟨hv, hstarts⟩
    rw [hvalid] at hstands
    rw [handle_let_in hfind hv, hvalid]
    exact (stands_of_profile (profile_handleValid_unstarted hs hc hstarts)).mpr hstands
  · exact (stands_of_profile (profile_handle_kept_out hfind hv)).mpr hstands

theorem handle_kept_out (hfind : g.find? sessionId = some (r, s))
    (hv : (g.validate r s m).1 ≠ .ok ()) : ∃ reply, (g.handle sessionId m).1 = .done reply := by
  unfold handle
  rw [get, hfind]
  dsimp only
  split
  · exact ⟨_, rfl⟩
  · rename_i h
    rw [h] at hv
    exact absurd rfl hv

theorem handle_uncalled (hfind : g.find? sessionId = some (r, s)) (hc : s.status = .connecting)
    (poll : ToolPoll) : (g.handle sessionId m).1 ≠ .calling request poll := by
  intro h
  have hv : (g.validate r s m).1 = .ok () := by
    by_contra hv
    obtain ⟨reply, hdone⟩ := handle_kept_out hfind hv
    cases h.symm.trans hdone
  obtain ⟨hid, hm⟩ := of_calling h
  obtain ⟨limiters, hvalid, hs⟩ := validate_found hfind m
  have hwait : m.MustWait request := ⟨hid, _, hm, by decide, by decide, by decide⟩
  rw [handle_let_in hfind hv, hvalid, handleValid_mustWait hs hc hwait] at h
  cases h

theorem handle_handshake (hfind : g.find? sessionId = some (r, s)) (hc : s.status = .connecting)
    (hv : (g.validate r s m).1 = .ok ()) (hm : m.method = some Method.handshake.name)
    (h : m.Starts g.settings) : ∃ request,
      (g.handle sessionId m).1 = .done (some (.success request (greeting g.settings))) := by
  obtain ⟨request, hid, hp⟩ : ∃ request, m.id = some request ∧
      HandshakeParams.Readable m.params := by
    rcases h with ⟨-, hid, hp⟩ | ⟨hm', -⟩ | ⟨hm', htasks, -, -⟩
    · exact ⟨_, hid, hp⟩
    · exact absurd (hm.symm.trans hm') (by decide)
    · rename_i method _
      have hname : Method.handshake.name = method.name := Option.some.inj (hm.symm.trans hm')
      have hmethod := congrArg Method.ofName? hname
      rw [Method.ofName?_name, Method.ofName?_name] at hmethod
      obtain rfl := Option.some.inj hmethod
      cases htasks
  obtain ⟨limiters, hvalid, hs⟩ := validate_found hfind m
  refine ⟨request, ?_⟩
  rw [handle_let_in hfind hv, hvalid]
  simp only [handleValid, hm, hid, handleRequest, hs, dispatch, Method.ofName?_name,
    Method.onTasks, handshake_readable hs hc hp, orElse]
  rfl

end Gateway

namespace Moment

def Connects (r : SessionRef) (x : Moment) : Prop :=
  ∃ s m, x.heard? r = some (s, m) ∧ x.verdict? r = some (.ok ()) ∧ m.Starts x.before.settings

/-- That a request is refused since its session has not been started, and that no more is left of it
than when the session was last active, and what it has drawn from its rates. -/
def Refuses (r : SessionRef) (s : Session) (request : RequestId) (x : Moment) : Prop :=
  ∃ q y limiters error, x.act = .control q ∧
    x.returned? q = some (some (.failure (some request) error)) ∧ error.code = -32600 ∧
    x.after = (x.before.setSession r
      { s with lastActivity := x.before.now, limiters }).setProcess q y

structure Gates (r : SessionRef) (s : Session) (m : Message) (x : Moment) : Prop where
  started : x.verdict? r = some (.ok ()) → m.Starts x.before.settings →
    x.after.Stands r .connected
  unstarted : ¬ (x.verdict? r = some (.ok ()) ∧ m.Starts x.before.settings) →
    x.after.Stands r .connecting
  refused : ∀ request, x.verdict? r = some (.ok ()) → m.MustWait request → x.Refuses r s request
  uncalled : ∀ q, x.act = .control q → ¬ x.after.AwaitsTool q
  failed : ∀ q request error, m.method = some Method.handshake.name →
    x.returned? q = some (some (.failure request error)) → x.after.Stands r .connecting

variable {x : Moment} {r : SessionRef} {s : Session} {m : Message}

open Gateway

theorem gates (hn : x.before.Numbered) (hstep : x.before.perform x.act = some x.after)
    (hheard : x.heard? r = some (s, m)) (hc : s.status = .connecting) : x.Gates r s m := by
  obtain ⟨q, id, hact, hin, hfind⟩ := of_heard? hheard
  have hverdict : x.verdict? r = some (x.before.validate r s m).1 := by
    rw [verdict?, hheard]
    rfl
  have htaken : x.taken? q = some (id, m) := by simp [taken?, hact, hin]
  obtain ⟨hhandling, hreturned⟩ := of_taking hn hstep htaken
  obtain ⟨p, hp, hincoming⟩ := Option.bind_eq_some_iff.mp hin
  rw [hact] at hstep
  obtain ⟨y, -, hafter⟩ := of_incoming hp hincoming hstep
  have hstands {status : SessionStatus} :
      x.after.Stands r status ↔ (x.before.handle id m).2.Stands r status := by
    rw [hafter]
    rfl
  have hlet : x.verdict? r = some (.ok ()) ↔ (x.before.validate r s m).1 = .ok () := by
    rw [hverdict, Option.some.injEq]
  refine ⟨fun hv hm => ?_, fun hm => ?_, fun request hv hm => ?_, ?_,
    fun q' request error hm hr => ?_⟩
  · exact hstands.mpr (stands_handle_started hfind hc (hlet.mp hv) hm)
  · rw [hlet] at hm
    exact hstands.mpr (stands_handle_unstarted hfind hc hm)
  · obtain ⟨limiters, hvalid, hs⟩ := validate_found hfind m
    have hh := handle_let_in hfind (hlet.mp hv)
    rw [hvalid, handleValid_mustWait hs hc hm] at hh
    refine ⟨q, y, limiters, (Fault.invalidRequest "Session not initialized").toRpc, hact, ?_, rfl,
      ?_⟩
    · rw [hreturned, hh]
      rfl
    · rw [hafter, hh]
  · rintro q' hact' ⟨request, hcalling⟩
    obtain rfl := Act.control.inj (hact.symm.trans hact')
    exact handle_uncalled hfind hc .pending (Option.some.inj (hhandling.symm.trans hcalling))
  · by_contra hnot
    obtain ⟨hv, hm'⟩ : (x.before.validate r s m).1 = .ok () ∧ m.Starts x.before.settings := by
      by_contra hm'
      exact hnot (hstands.mpr (stands_handle_unstarted hfind hc hm'))
    obtain ⟨request', hreply⟩ := handle_handshake hfind hc hv hm hm'
    obtain rfl : q' = q := by
      by_contra hne
      have hother : x.returned? q' = none :=
        returned?_other fun h => hne (Act.control.inj (h.symm.trans hact))
      cases hr.symm.trans hother
    rw [hreturned, hreply] at hr
    cases congrArg Message.error (Option.some.inj (Option.some.inj hr))

end Moment

namespace Gateway

variable {g g' : Gateway} {r q : SessionRef} {s s' : Session} {a : Act} {reason : CloseReason}

theorem stands_of_shut (h : (g.shut q).2.Stands r .connected) : g.Stands r .connected := by
  obtain ⟨s', hs', hc'⟩ := Option.map_eq_some_iff.mp h
  by_cases hr : r = q
  · subst hr
    cases (closed_shut hs').symm.trans hc'
  · rw [session?_shut] at hs'
    obtain ⟨s, hs, heq⟩ := Option.map_eq_some_iff.mp hs'
    rw [if_neg hr] at heq
    rw [Stands, hs, heq, Option.map_some, hc']

theorem stands_of_retireEach (rs : List SessionRef) (g : Gateway)
    (h : (rs.foldl (fun g r => g.retire r reason) g).Stands r .connected) :
    g.Stands r .connected := by
  induction rs generalizing g with
  | nil => exact h
  | cons q rs ih =>
      have hretired := ih (g.retire q reason) h
      exact stands_of_shut (g := { g with live := g.live.filter (· ≠ q) }) hretired

theorem of_stands_setSession (hs : g.session? q = some s) (hstatus : s'.status = s.status)
    {status : SessionStatus} : (g.setSession q s').Stands r status ↔ g.Stands r status :=
  stands_of_profile (profile_setSession hs hstatus)

theorem stands_of_openSession {draws : List String} {owner : String} {kind : SessionKind}
    {params : SessionParams} (hopen : g.openSession draws owner kind params = some (q, g'))
    (h : g'.Stands r .connected) : g.Stands r .connected := by
  obtain ⟨id, -, heq⟩ := Option.map_eq_some_iff.mp hopen
  cases heq
  rw [Stands, session?, List.getElem?_append] at h
  split at h
  · exact h
  · rw [List.getElem?_singleton] at h
    split at h <;> cases h

theorem connected_or_connects (hl : g.live.Nodup) (hn : g.Numbered) (hstep : g.perform a = some g')
    (hhost : a ≠ .transition r .connected) (h : g'.Stands r .connected) :
    g.Stands r .connected ∨ Moment.Connects r ⟨g, a, g'⟩ := by
  rcases apart_or_profiled (f := Session.status) hl hstep with
    (⟨rfl, hin, hfind, hafter⟩ | ⟨rfl, hmove⟩) | hsame | ⟨-, -, hfind, hvalid⟩ | ⟨-, hs, rfl⟩ |
      ⟨-, hs, rfl⟩ | ⟨-, hopen⟩ | ⟨-, rfl⟩ | ⟨rs, -, -, hdesk⟩ | ⟨q, -, rfl⟩
  · rename_i q id m found s y
    have hs := (find?_spec hfind).2.1
    by_cases hr : r = found
    · subst hr
      have hheard : Moment.heard? r ⟨g, .control q, g'⟩ = some (s, m) := by
        simp [Moment.heard?, hin, hfind]
      cases hc : s.status with
      | connecting =>
          by_contra hnot
          have hstill : g'.Stands r .connecting :=
            (Moment.gates hn hstep hheard hc).unstarted fun hm =>
              hnot (.inr ⟨s, m, hheard, hm⟩)
          cases h.symm.trans hstill
      | connected => exact .inl (by rw [Stands, hs, Option.map_some, hc])
      | closed =>
          obtain ⟨es, hp, -⟩ := posted_perform hn hstep
          obtain ⟨s', hs', hage⟩ := hp.ages r s hs
          have hclosed : g'.Stands r .closed := by
            rw [Stands, show g'.session? r = some s' from hs', Option.map_some, hage.closed hc]
          cases h.symm.trans hclosed
    · have hkept : g'.session? r = g.session? r := by
        rw [hafter]
        exact confined_handle hfind r hr
      rw [Stands, hkept] at h
      exact .inl h
  · rename_i q target
    obtain ⟨s, hs, rfl⟩ := Option.map_eq_some_iff.mp hmove
    rw [Stands, session?_setSession hs] at h
    split at h
    · rename_i hr
      subst hr
      have htarget : target ≠ .connected := fun htarget => hhost (congrArg _ htarget)
      have hc := Session.connected_of_moved (Option.some.inj h) htarget
      exact .inl (by rw [Stands, hs, Option.map_some, hc])
    · exact .inl h
  · exact .inl ((stands_of_profile hsame).mp h)
  · obtain ⟨limiters, hafter, -⟩ := validate_found hfind _
    rw [hafter] at hvalid
    have hs := (find?_spec hfind).2.1
    refine .inl ((of_stands_setSession hs ?_).mp ((stands_of_profile hvalid).mp h))
    rfl
  · refine .inl ((of_stands_setSession hs ?_).mp h)
    rfl
  · refine .inl ((of_stands_setSession hs ?_).mp h)
    rfl
  · exact .inl (stands_of_openSession hopen h)
  · exact .inl h
  · rw [Stands, session?_of_desk hdesk] at h
    exact .inl (stands_of_retireEach rs g h)
  · exact .inl (stands_of_shut h)

end Gateway

/-- That a session is connected only after a message that starts sessions has been let in on it,
and that every message before is held back from it. -/
structure Gated (r : SessionRef) (ms : List Moment) (g : Gateway) : Prop where
  started : g.Stands r .connected → ∃ x ∈ ms, x.Connects r
  gates : ∀ x ∈ ms, ∀ s m, x.heard? r = some (s, m) → s.status = .connecting → x.Gates r s m

/-- As long as its host does not mark it as connected, a session is started by its peer alone. -/
theorem started_by_peer {g₀ g : Gateway} {ms : List Moment} (h₀ : g₀.IsNew) (hr : Run g₀ ms g)
    (r : SessionRef) (hhost : ∀ x ∈ ms, x.act ≠ .transition r .connected) : Gated r ms g := by
  induction hr with
  | nil =>
      obtain ⟨settings, tools, epoch, rfl⟩ := h₀
      refine ⟨fun h => ?_, fun x hx => absurd hx List.not_mem_nil⟩
      simp [Gateway.Stands, Gateway.session?, Gateway.new] at h
  | @snoc ms g a g' hrun hstep ih =>
      have hbefore := ih fun x hx => hhost x (List.mem_append_left _ hx)
      have hn := hrun.numbered h₀.numbered
      constructor
      · intro h
        have hact : a ≠ .transition r .connected :=
          hhost ⟨g, a, g'⟩ (List.mem_append_right _ (List.mem_singleton_self _))
        rcases Gateway.connected_or_connects (hrun.registered h₀).nodup hn hstep hact h with
          hconnected | hnow
        · obtain ⟨x, hx, hstarts⟩ := hbefore.started hconnected
          exact ⟨x, List.mem_append_left _ hx, hstarts⟩
        · exact ⟨_, List.mem_append_right _ (List.mem_singleton_self _), hnow⟩
      · intro x hx s m hheard hc
        rcases List.mem_append.mp hx with hx | hx
        · exact hbefore.gates x hx s m hheard hc
        · obtain rfl := List.mem_singleton.mp hx
          exact Moment.gates hn hstep hheard hc

/-- A listing is asked for before the handshake, and refused. -/
def Act.hasty : List Act :=
  [.openSession ["a"] "owner" .server {}, .submit "a" (.request (.number 1) "tools/list" none),
    .control 0, .submit "a" (.request (.number 2) "initialize" none), .control 1]

theorem started_by_peer_hasty : ∃ ms g x y s, Run (Gateway.new {} []) ms g ∧
    ms[2]? = some x ∧ x.Refuses 0 s (.number 1) ∧ x.after.Stands 0 .connecting ∧
    y ∈ ms ∧ y.Connects 0 ∧ g.Stands 0 .connected := by
  obtain ⟨ms, g, hr, hacts, h⟩ := Run.exists_of_replay Act.hasty (Gateway.new {} [])
    (fun ms g => (g.session? 0).map Session.status = some .connected ∧
      ms[2]?.any fun x => (x.verdict? 0).any (·.toOption.isSome) ∧
        (x.heard? 0).any fun found => found.1.status = .connecting ∧
          found.2 = .request (.number 1) "tools/list" none)
    (by decide +kernel)
  simp only [Option.any_eq_true, decide_eq_true_eq] at h
  obtain ⟨hconnected, x, hx, ⟨v, hv, hlet⟩, ⟨s, m⟩, hheard, hc, rfl⟩ := h
  have hhost : ∀ x ∈ ms, x.act ≠ .transition 0 .connected := by
    intro x hx hact
    have hmem : x.act ∈ Act.hasty := hacts ▸ List.mem_map_of_mem hx
    rw [hact] at hmem
    simp [Act.hasty] at hmem
  have hgated := started_by_peer ⟨{}, [], 0, rfl⟩ hr 0 hhost
  obtain ⟨y, hy, hconnects⟩ := hgated.started hconnected
  have hgates := hgated.gates x (List.mem_of_getElem? hx) s _ hheard hc
  have hv : x.verdict? 0 = some (.ok ()) := by
    cases v with
    | error e => cases hlet
    | ok _ => exact hv
  have hwait : (Message.request (.number 1) "tools/list" none).MustWait (.number 1) :=
    ⟨rfl, "tools/list", rfl, by decide, by decide, by decide⟩
  have hunstarted : ¬ (Message.request (.number 1) "tools/list" none).Starts x.before.settings := by
    rw [Message.starts_request rfl rfl]
    rintro ⟨method, hname, h⟩
    obtain rfl : method = .toolsList := Option.some.inj (hname.symm.trans rfl)
    rcases h with ⟨h, -⟩ | ⟨h, -⟩ <;> cases h
  exact ⟨ms, g, x, y, s, hr, hx, hgates.refused _ hv hwait,
    hgates.unstarted fun h => hunstarted h.2, hy, hconnects, hconnected⟩

end AgentGateway
