import AgentGateway.Config.Resolve
import AgentGateway.Proofs.Checks
import AgentGateway.Proofs.Gate
import Mathlib.Data.Fintype.EquivFin
/-!
What accepted configurations are good for. Of the limits that could refuse everything, two are not
checked: where ids may have no bytes at all, only requests with an empty id are let in, and where
the queue of a session is to be larger than any queue can be, no session is opened. Under all other
configurations that are accepted, the first message on a session is answered.
-/

namespace AgentGateway

structure CliConfig.Typed (cli : CliConfig) : Prop where
  perMinute : cli.requestsPerMinute < 2 ^ 32
  perSecond : cli.requestsPerSecond < 2 ^ 32

structure FileConfig.Typed (file : FileConfig) : Prop where
  perMinute : ∀ t n, file.throttle = some t → t.requestsPerMinute = some n → n < 2 ^ 32
  perSecond : ∀ t n, file.throttle = some t → t.requestsPerSecond = some n → n < 2 ^ 32

namespace Config

structure Rated (c : Config) : Prop where
  perMinute_pos : 0 < c.requestsPerMinute
  perSecond_pos : 0 < c.requestsPerSecond
  perMinute_lt : c.requestsPerMinute < 2 ^ 32
  perSecond_lt : c.requestsPerSecond < 2 ^ 32

variable {cli : CliConfig} {file : FileConfig} {c : Config}

theorem rate_lt {rate : ThrottleSection → Option Nat} {fallback : Nat} (hcli : fallback < 2 ^ 32)
    (hfile : ∀ t n, file.throttle = some t → rate t = some n → n < 2 ^ 32)
    (hempty : rate {} = none) : (rate (file.throttle.getD {})).getD fallback < 2 ^ 32 := by
  cases ht : file.throttle with
  | none => rwa [Option.getD_none, hempty]
  | some t =>
      rw [Option.getD_some]
      cases hn : rate t with
      | none => exact hcli
      | some n => exact hfile t n ht hn

theorem rated_of_resolve (hcli : cli.Typed) (hfile : file.Typed) (h : resolve cli file = .ok c) :
    c.Rated := by
  obtain ⟨level, -, h⟩ := bind_eq_ok.mp h
  obtain ⟨idle, -, h⟩ := bind_eq_ok.mp h
  obtain ⟨sweep, -, h⟩ := bind_eq_ok.mp h
  dsimp only at h
  split at h
  · cases h
  obtain ⟨maxParamsBytes, -, h⟩ := bind_eq_ok.mp h
  obtain ⟨outboundBuffer, -, h⟩ := bind_eq_ok.mp h
  obtain ⟨toolsPageSize, -, h⟩ := bind_eq_ok.mp h
  split at h
  · cases h
  rename_i hrates
  rw [not_or] at hrates
  cases h
  exact ⟨Nat.pos_of_ne_zero hrates.1, Nat.pos_of_ne_zero hrates.2,
    rate_lt hcli.perMinute hfile.perMinute rfl, rate_lt hcli.perSecond hfile.perSecond rfl⟩

end Config

theorem RequestId.byteLength_pos {id : RequestId} (h : id.isEmpty = false) : 0 < id.byteLength := by
  refine Nat.pos_of_ne_zero fun hzero => ?_
  rw [byteLength, String.utf8ByteSize_eq_zero_iff] at hzero
  cases id with
  | string s => exact absurd hzero (by simpa [isEmpty, display] using h)
  | number n =>
      cases n with
      | ofNat n => exact Nat.repr_ne_empty hzero
      | negSucc n => simp [display, toString, Int.repr] at hzero

def Message.ping : Message := .request (.number 1) Method.ping.name none

theorem Bucket.heldAt_full {rate : Rat} {n : Nat} {now : Nanos} (hn : n < 2 ^ 32) :
    (full rate n now).heldAt .binary64 now = n :=
  heldAt_refilled rfl (Binary64.holds_natCast (lt_trans hn (by decide))) le_rfl

namespace Session

variable {v : ValidationSettings} {now : Nanos} {s : Session}

/-- That a session has the rates of its gateway, of which nothing has been drawn. -/
structure Unspent (s : Session) : Prop where
  limiters : s.limiters = none
  overrides : s.overrides = {}

theorem Unspent.of_meter {t : Session} (h : t.Unspent) (hm : s.meter = t.meter) : s.Unspent := by
  obtain ⟨hlimiters, hoverrides, -⟩ := Session.of_meter hm
  exact ⟨hlimiters.trans h.limiters, hoverrides.trans h.overrides⟩

theorem Unspent.limitersOf (h : s.Unspent) : Validator.limitersOf v now s =
    .full v.rounding v.requestsPerSecond v.requestsPerMinute now := by
  simp [Validator.limitersOf, h.limiters, h.overrides]

theorem Unspent.held (h : s.Unspent) (hv : v.Typed) (now : Nanos) :
    s.held v now .perSecond = v.requestsPerSecond ∧
      s.held v now .perMinute = v.requestsPerMinute := by
  rw [Session.held, Session.held, h.limitersOf, hv.rounding]
  exact ⟨Bucket.heldAt_full hv.perSecond, Bucket.heldAt_full hv.perMinute⟩

end Session

namespace Gateway

variable {g g' : Gateway} {r : SessionRef} {s : Session} {c : Config} {sessionId : String}

theorem ping_admitted_iff (hset : g.settings = c.gatewaySettings) (hc : c.Rated)
    (hs : s.Unspent) : (g.validate r s .ping).1 = .ok () ↔ 0 < c.maxIdBytes := by
  have hv : c.gatewaySettings.validation.Typed := ⟨rfl, hc.perSecond_lt, hc.perMinute_lt⟩
  have htouched : (s.touch g.now).Unspent := ⟨hs.limiters, hs.overrides⟩
  obtain ⟨hsecond, hminute⟩ := htouched.held hv g.now
  have hallowed : AllowList.standard.contains Method.ping.name = true := by decide
  have hlength : (RequestId.number 1).byteLength = 1 := by decide
  refine Session.admitted_iff.trans ?_
  rw [hset, hsecond, hminute]
  constructor
  · rintro ⟨-, hid, -⟩
    exact hlength.symm.trans_le (hid _ rfl)
  · intro hpos
    refine ⟨.inl ⟨_, rfl, hallowed⟩, fun id hid => ?_, nofun, ?_, ?_⟩
    · obtain rfl : RequestId.number 1 = id := Option.some.inj hid
      exact hlength.trans_le hpos
    · exact_mod_cast hc.perSecond_pos
    · exact_mod_cast hc.perMinute_pos

theorem find?_of_get (h : g.get sessionId = .ok (r, s)) : g.find? sessionId = some (r, s) := by
  unfold get at h
  split at h <;> cases h
  assumption

theorem handle_ping (hfind : g.find? sessionId = some (r, s))
    (hv : (g.validate r s .ping).1 = .ok ()) :
    (g.handle sessionId .ping).1 = .done (some (.success (.number 1) (.object []))) := by
  obtain ⟨limiters, hvalid, hs⟩ := validate_found hfind .ping
  rw [handle_let_in hfind hv, hvalid]
  simp only [handleValid, Message.ping, Message.request, handleRequest, hs, dispatch,
    Method.ofName?_name, Method.onTasks]
  rfl

theorem handle_turned_away {m : Message} (hfind : g.find? sessionId = some (r, s))
    (hv : (g.validate r s m).1 ≠ .ok ()) : ∃ rejection : Rejection,
      (g.handle sessionId m).1 = .done (m.id.bind fun id => reply id rejection.toFault) := by
  unfold handle
  rw [get, hfind]
  dsimp only
  split
  · exact ⟨_, rfl⟩
  · rename_i h
    rw [h] at hv
    exact absurd rfl hv

theorem turned_away (hset : g.settings = c.gatewaySettings) (hc : c.maxIdBytes = 0) {m : Message}
    {request : RequestId} (hid : m.id = some request) (hne : request.isEmpty = false) :
    (g.validate r s m).1 ≠ .ok () := by
  intro hv
  have hle : request.byteLength ≤ g.settings.validation.maxIdBytes :=
    (Session.admitted_iff.mp hv).2.1 request hid
  have hmax : g.settings.validation.maxIdBytes = 0 := by
    rw [hset]
    exact hc
  exact absurd (RequestId.byteLength_pos hne) (Nat.not_lt.mpr (hmax ▸ hle))

theorem openSession_eq_none (hset : g.settings = c.gatewaySettings)
    (hc : Channel.maxCapacity < c.outboundBuffer) (draws : List String) (owner : String)
    (kind : SessionKind) (params : SessionParams) : g.openSession draws owner kind params = none := by
  have hbuffer : ¬ g.settings.outboundBuffer ≤ Channel.maxCapacity := by
    rw [hset]
    exact Nat.not_le.mpr hc
  rw [openSession, freshId?, if_neg hbuffer, Option.map_none]

/-- That peers are served: a session is opened under any fresh id, and a ping is answered which
comes in on it before anything has been drawn from its rates, if it has none of its own. -/
structure Serves (g : Gateway) : Prop where
  opens : ∀ draws owner kind context, (∃ id ∈ draws, id ∉ g.liveIds) →
    (g.openSession draws owner kind { context }).isSome
  answers : ∀ draws owner kind context r g₁ ns g₂ s,
    g.openSession draws owner kind { context } = some (r, g₁) → Run g₁ ns g₂ →
    ns.filterMap (Moment.rateEvent? r) = [] → g₂.get s.id = .ok (r, s) →
      (g₂.handle s.id .ping).1 = .done (some (.success (.number 1) (.object [])))

theorem opens (hset : g.settings = c.gatewaySettings)
    (hbuffer : c.outboundBuffer ≤ Channel.maxCapacity) {draws : List String} (owner : String)
    (kind : SessionKind) (params : SessionParams) (hfresh : ∃ id ∈ draws, id ∉ g.liveIds) :
    (g.openSession draws owner kind params).isSome := by
  have hbuffer : g.settings.outboundBuffer ≤ Channel.maxCapacity := by
    rw [hset]
    exact hbuffer
  rw [openSession, Option.isSome_map, freshId?, if_pos hbuffer, List.find?_isSome]
  simpa using hfresh

end Gateway

namespace Run

variable {g₀ g g₁ g₂ : Gateway} {ms ns : List Moment} {r : SessionRef} {s t : Session}

theorem unspent (h₀ : g₀.IsNew) (hr : Run g₀ ms g₁) (ht : g₁.session? r = some t)
    (hunspent : t.Unspent) (hrest : Run g₁ ns g₂)
    (hquiet : ns.filterMap (Moment.rateEvent? r) = []) (hlive : r ∈ g₂.live)
    (hs : g₂.session? r = some s) : s.Unspent := by
  have hmeter : g₁.Measures t r := congrArg (Option.map Session.meter) ht
  rcases (hr.verdicts h₀ hrest (Gateway.lt_of_session? ht) hmeter).2 with hgone | hkept
  · exact absurd hlive hgone
  · rw [hquiet, Gateway.Measures, hs] at hkept
    exact hunspent.of_meter (Option.some.inj hkept)

theorem opened_unspent {draws : List String} {owner : String} {kind : SessionKind}
    {context : List (String × String)} (h₀ : g₀.IsNew) (hr : Run g₀ ms g)
    (hopen : g.openSession draws owner kind { context } = some (r, g₁)) :
    ∃ ms₁ t, Run g₀ ms₁ g₁ ∧ g₁.get t.id = .ok (r, t) ∧ t.Unspent := by
  have hstep : g.perform (.openSession draws owner kind { context }) = some g₁ := by
    rw [Gateway.perform, hopen, Option.map_some]
  have hr₁ := hr.snoc hstep
  obtain ⟨id, -, heq⟩ := Option.map_eq_some_iff.mp hopen
  obtain ⟨rfl, hafter⟩ := Prod.mk.inj heq
  have ht : g₁.session? g.sessions.length = some (Session.opened id owner kind { context }
      g.settings.outboundBuffer g.now) := by
    rw [← hafter]
    exact List.getElem?_concat_length
  refine ⟨_, _, hr₁, (hr₁.registered h₀).get ht fun hclosed => ?_, rfl, rfl⟩
  cases hclosed

end Run

/-- Peers are served under every configuration that is accepted, unless ids may have no bytes or the
queues of sessions are to be too large, neither of which is checked. In the first case no request is
let in whose id is not empty, and in the second no session is opened. -/
theorem serves_iff {cli : CliConfig} {file : FileConfig} {c : Config} {g₀ g : Gateway}
    {ms : List Moment} (hcli : cli.Typed) (hfile : file.Typed)
    (hc : Config.resolve cli file = .ok c) (h₀ : g₀.IsNew)
    (hset : g₀.settings = c.gatewaySettings) (hr : Run g₀ ms g) :
    (g.Serves ↔ 0 < c.maxIdBytes ∧ c.outboundBuffer ≤ Channel.maxCapacity) ∧
    (c.maxIdBytes = 0 → ∀ r s m request, m.id = some request → request.isEmpty = false →
      (g.validate r s m).1 ≠ .ok ()) ∧
    (Channel.maxCapacity < c.outboundBuffer → ∀ draws owner kind params,
      g.openSession draws owner kind params = none) := by
  have hrated := Config.rated_of_resolve hcli hfile hc
  have hafter {ms' : List Moment} {g' : Gateway} (hr' : Run g₀ ms' g') :
      g'.settings = c.gatewaySettings := hr'.settings.trans hset
  refine ⟨⟨fun h => ?_, fun h => ⟨?_, ?_⟩⟩, fun hid r s m request => ?_, fun hbuffer => ?_⟩
  · obtain ⟨id, hid⟩ := Infinite.exists_notMem_finset g.liveIds.toFinset
    have hfresh : ∃ x ∈ [id], x ∉ g.liveIds := ⟨id, List.mem_singleton_self _, by simpa using hid⟩
    obtain ⟨⟨r, g₁⟩, hopen⟩ := Option.isSome_iff_exists.mp (h.opens [id] "" .server [] hfresh)
    obtain ⟨ms₁, t, hr₁, ht, -⟩ := hr.opened_unspent h₀ hopen
    have hreply := h.answers [id] "" .server [] r g₁ [] g₁ t hopen .nil rfl ht
    constructor
    · refine Nat.pos_of_ne_zero fun hzero => ?_
      obtain ⟨rejection, hrefusal⟩ := Gateway.handle_turned_away (Gateway.find?_of_get ht)
        (Gateway.turned_away (hafter hr₁) hzero (rfl : Message.ping.id = some (.number 1)) rfl)
      cases hrefusal.symm.trans hreply
    · by_contra hbuffer
      have hnone := Gateway.openSession_eq_none (hafter hr) (Nat.not_le.mp hbuffer) [id] "" .server
        { context := [] }
      cases hnone.symm.trans hopen
  · exact fun draws owner kind context => Gateway.opens (hafter hr) h.2 owner kind _
  · intro draws owner kind context r g₁ ns g₂ s hopen hrest hquiet hget
    obtain ⟨ms₁, t, hr₁, ht, hunspent⟩ := hr.opened_unspent h₀ hopen
    have hfind := Gateway.find?_of_get hget
    obtain ⟨hlive, hs, -⟩ := Gateway.find?_spec hfind
    have hs₂ : s.Unspent :=
      Run.unspent h₀ hr₁ (Gateway.session?_of_get ht) hunspent hrest hquiet hlive hs
    exact Gateway.handle_ping hfind
      ((Gateway.ping_admitted_iff (hafter (hr₁.append hrest)) hrated hs₂).mpr h.1)
  · exact Gateway.turned_away (hafter hr) hid
  · exact Gateway.openSession_eq_none (hafter hr) hbuffer

theorem serves_iff_idless : ∃ c c', Config.resolve {} {} = .ok c ∧
    (Gateway.new c.gatewaySettings []).Serves ∧
    Config.resolve {} { maxIdBytes := some 0 } = .ok c' ∧
    ¬ (Gateway.new c'.gatewaySettings []).Serves := by
  have hcli : CliConfig.Typed {} := ⟨by decide, by decide⟩
  have hfile (maxIdBytes : Option Nat) : FileConfig.Typed { maxIdBytes } := ⟨nofun, nofun⟩
  have hserves {maxIdBytes : Option Nat} {c : Config}
      (h : Config.resolve {} { maxIdBytes } = .ok c) :=
    (serves_iff hcli (hfile maxIdBytes) h
      (⟨_, [], 0, rfl⟩ : (Gateway.new c.gatewaySettings []).IsNew) rfl .nil).1
  obtain ⟨c, hc⟩ : ∃ c, Config.resolve {} {} = .ok c := ⟨_, rfl⟩
  obtain ⟨c', hc'⟩ : ∃ c, Config.resolve {} { maxIdBytes := some 0 } = .ok c := ⟨_, rfl⟩
  refine ⟨c, c', hc, (hserves hc).mpr ?_, hc', fun h => absurd ((hserves hc').mp h).1 ?_⟩
  · cases hc
    decide
  · cases hc'
    decide

end AgentGateway
