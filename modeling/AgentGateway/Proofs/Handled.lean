import AgentGateway.Gateway.Handler
import AgentGateway.Proofs.Frame
import AgentGateway.Proofs.Store
/-!
What the handling of a message does to tasks, tokens and processes: nothing, or one of three things.
A tool that is called does nothing to them either, until it has answered.
-/

namespace AgentGateway

open Json (Value)

def Dispatched.handling (request : RequestId) : Dispatched → Handling
  | .result v => .done (some (.success request v))
  | .fault f => .done (Gateway.reply request f)
  | .running i n => .running i request n
  | .streaming => .done none
  | .calling => .calling request .pending

namespace Gateway

def sent (store : TaskStore) (g : Gateway) : Gateway :=
  { g with store, nextToken := g.nextToken + 1 }

inductive Handled (g : Gateway) : Handling → Gateway → Prop
  | calm {reply g'} : g'.inner = g.inner → Handled g (.done reply) g'
  | called {request g'} : g'.inner = g.inner → Handled g (.calling request .pending) g'
  | began {params headers timestamp task store delay request historyLength g'} :
      g.store.send params headers g.nextToken timestamp = .ok (task, store) →
      g'.inner = (g.sent store).inner →
      Handled g (.running (.start delay task g.nextToken none) request historyLength) g'
  | subscribed {params headers timestamp task store delay peer g'} :
      g.store.send params headers g.nextToken timestamp = .ok (task, store) →
      peer.session < g.sessions.length →
      g'.inner = ((g.sent store).spawn
        (.subscription (.running (.start delay task g.nextToken (some peer))))).2.inner →
      Handled g (.done none) g'
  | cancelled {id timestamp task token store reply g'} :
      g.store.cancel id timestamp = .ok (task, token, store) →
      g'.inner = { token.elim g (fun k => g.signal k) with store }.inner →
      Handled g (.done reply) g'

variable {g g' : Gateway} {r : SessionRef} {s : Session} {params : Option Value} {v : Value}
  {d : Dispatched} {method : Method} {name : String} {request : RequestId}

theorem inner_withStore (store : TaskStore) (h : g'.inner = g.inner) :
    { g' with store }.inner = { g with store }.inner :=
  (congrArg (fun g => { g with store }) h :)

theorem inner_sent (store : TaskStore) (h : g'.inner = g.inner) :
    (g'.sent store).inner = (g.sent store).inner :=
  (congrArg (sent store) h :)

theorem inner_signal (k : Token) (h : g'.inner = g.inner) :
    (g'.signal k).inner = (g.signal k).inner := by
  unfold signal isSignalled
  rw [signalled_of_inner h]
  split
  · exact h
  · have hcons : { g' with signalled := k :: g.signalled }.inner =
        { g with signalled := k :: g.signalled }.inner :=
      (congrArg (fun g₁ => { g₁ with signalled := k :: g.signalled }) h :)
    exact (inner_wakeAll _).trans (hcons.trans (inner_wakeAll _).symm)

theorem inner_spawn {x : Process} (h : g'.inner = g.inner) :
    (g'.spawn x).2.inner = (g.spawn x).2.inner := by
  have hadd : { g' with nextProcess := g'.nextProcess + 1
                        processes := g'.processes ++ [(g'.nextProcess, x)] }.inner =
      { g with nextProcess := g.nextProcess + 1
               processes := g.processes ++ [(g.nextProcess, x)] }.inner :=
    (congrArg (fun g => { g with nextProcess := g.nextProcess + 1
                                 processes := g.processes ++ [(g.nextProcess, x)] }) h :)
  exact inner_wake.trans (hadd.trans inner_wake.symm)

theorem Handled.of_inner {h : Handling} {g₀ : Gateway} (hg : Handled g h g')
    (hi : g.inner = g₀.inner) (hl : g.sessions.length = g₀.sessions.length) :
    Handled g₀ h g' := by
  cases hg with
  | calm h => exact .calm (h.trans hi)
  | called h => exact .called (h.trans hi)
  | began hs h =>
      rw [store_of_inner hi, nextToken_of_inner hi] at hs
      rw [nextToken_of_inner hi]
      exact .began hs (h.trans (inner_sent _ hi))
  | subscribed hs hp h =>
      rw [store_of_inner hi, nextToken_of_inner hi] at hs
      rw [nextToken_of_inner hi] at h
      exact .subscribed hs (hl ▸ hp) (h.trans (inner_spawn (inner_sent _ hi)))
  | @cancelled _ _ _ token store _ _ hc h =>
      rw [store_of_inner hi] at hc
      refine .cancelled hc (h.trans (inner_withStore store ?_))
      cases token with
      | none => exact hi
      | some k => exact inner_signal k hi

theorem inner_connect (h : g.connect r = .ok g') : g'.inner = g.inner := by
  unfold connect at h
  split at h <;> cases h <;> rfl

theorem length_connect (h : g.connect r = .ok g') : g'.sessions.length = g.sessions.length := by
  unfold connect at h
  split at h <;> cases h
  · exact List.length_set
  · rfl

theorem inner_handshake (h : g.handshake r params = .ok (v, g')) : g'.inner = g.inner := by
  unfold handshake at h
  cases params with
  | none =>
      obtain ⟨g₁, hc, h⟩ := bind_eq_ok.mp h
      cases h
      exact inner_connect hc
  | some _ =>
      obtain ⟨-, -, h⟩ := bind_eq_ok.mp h
      obtain ⟨g₁, hc, h⟩ := bind_eq_ok.mp h
      cases h
      exact inner_connect hc

theorem inner_setLogLevel (h : g.setLogLevel r s params = .ok (v, g')) : g'.inner = g.inner := by
  simp only [setLogLevel, bind_eq_ok] at h
  obtain ⟨level, -, h⟩ := h
  split at h <;> cases h
  rfl

theorem beginTask_spec {subscriber : Option Subscriber} {i : Invocation} {n : Option Nat}
    (h : g.beginTask s params subscriber = .ok (i, n, g')) :
    ∃ p headers timestamp task store,
      g.store.send p headers g.nextToken timestamp = .ok (task, store) ∧
      i = .start g.settings.chunkDelay task g.nextToken subscriber ∧ g' = g.sent store := by
  simp only [beginTask, takeToken, bind_eq_ok] at h
  obtain ⟨p, -, ⟨task, store⟩, hs, h⟩ := h
  cases h
  exact ⟨p, _, _, task, store, hs, rfl, rfl⟩

theorem handled_cancelTask (h : g.cancelTask params = .ok (v, g')) (reply : Option Message) :
    Handled g (.done reply) g' := by
  simp only [cancelTask, bind_eq_ok] at h
  obtain ⟨p, -, ⟨task, token, store⟩, hc, h⟩ := h
  cases h
  exact .cancelled hc rfl

theorem handled_orElse {x : Except Fault (Value × Gateway)}
    (hx : ∀ v g', x = .ok (v, g') → ∀ reply, Handled g (.done reply) g')
    (h : g.orElse x = (d, g')) : Handled g (d.handling request) g' := by
  cases x with
  | error f =>
      cases h
      exact .calm rfl
  | ok y =>
      cases h
      exact hx _ _ rfl _

theorem handled_answer {x : Except Fault Value} :
    Handled g ((answer x).handling request) g := by
  cases x <;> exact .calm rfl

theorem handled_called {poll : ToolPoll} : Handled g ((called poll).handling request) g := by
  cases poll with
  | pending => exact .called rfl
  | ok | error => exact .calm rfl

theorem handled_dispatchTask (hr : r < g.sessions.length)
    (h : g.dispatchTask method r s request params = (d, g')) :
    Handled g (d.handling request) g' := by
  unfold dispatchTask at h
  split at h
  · split at h
    · rename_i hb
      obtain ⟨p, headers, timestamp, task, store, hs, rfl, rfl⟩ := beginTask_spec hb
      cases h
      exact .began hs rfl
    · cases h
      exact .calm rfl
  · split at h
    · rename_i hb
      obtain ⟨p, headers, timestamp, task, store, hs, rfl, rfl⟩ := beginTask_spec hb
      cases h
      exact .subscribed hs hr rfl
    · cases h
      exact .calm rfl
  · cases h
    exact handled_answer
  · exact handled_orElse (fun _ _ => handled_cancelTask) h

theorem handled_dispatchTool (h : g.dispatchTool method r s params = (d, g')) :
    Handled g (d.handling request) g' := by
  unfold dispatchTool at h
  split at h
  case h_11 => exact handled_orElse (fun _ _ hl _ => .calm (inner_setLogLevel hl)) h
  case h_1 =>
    cases h
    exact handled_answer
  case h_2 =>
    cases h
    exact handled_called
  case h_4 | h_7 =>
    split at h
    all_goals
      cases h
      exact .calm rfl
  all_goals
    cases h
    exact .calm rfl

theorem handled_dispatch (hr : r < g.sessions.length)
    (h : g.dispatch name r s request params = (d, g')) : Handled g (d.handling request) g' := by
  unfold dispatch at h
  split at h
  · split at h
    all_goals
      cases h
      exact .calm rfl
  · split at h
    · split at h
      · cases h
        exact .calm rfl
      · split at h
        · cases h
          exact .calm rfl
        · rename_i g₁ hg₁
          have hsame : g₁.inner = g.inner ∧ g₁.sessions.length = g.sessions.length := by
            split at hg₁
            · exact ⟨inner_connect hg₁, length_connect hg₁⟩
            · cases hg₁
              exact ⟨rfl, rfl⟩
          exact (handled_dispatchTask (hsame.2 ▸ hr) h).of_inner hsame.1 hsame.2
    · repeat' split at h
      case isTrue => exact handled_orElse (fun _ _ hh _ => .calm (inner_handshake hh)) h
      case isFalse => exact handled_dispatchTool h
      all_goals
        cases h
        exact .calm rfl

theorem find?_spec {id : String} (h : g.find? id = some (r, s)) :
    r ∈ g.live ∧ g.session? r = some s ∧ s.id = id := by
  obtain ⟨q, hq, hfound⟩ := List.exists_of_findSome?_eq_some h
  obtain ⟨s', hs', hid⟩ := Option.bind_eq_some_iff.mp hfound
  split at hid <;> cases hid
  exact ⟨hq, hs', ‹_›⟩

theorem session?_of_find? {id : String} (h : g.find? id = some (r, s)) :
    g.session? r = some s :=
  (find?_spec h).2.1

theorem session?_of_get {id : String} (h : g.get id = .ok (r, s)) : g.session? r = some s := by
  unfold get at h
  split at h <;> cases h
  rename_i hf
  exact session?_of_find? hf

theorem handled_handleRequest :
    Handled g (g.handleRequest name r request params).1
      (g.handleRequest name r request params).2 := by
  unfold handleRequest
  cases hs : g.session? r with
  | none => exact .calm rfl
  | some s =>
      have hr := lt_of_session? hs
      dsimp only
      split
      all_goals
        rename_i hd
        exact handled_dispatch hr hd

theorem inner_handleNotification : (g.handleNotification name r).inner = g.inner := by
  unfold handleNotification
  split
  · cases h : g.connect r with
    | error _ => rfl
    | ok g' => exact inner_connect h
  · rfl

theorem handled_handleValid {m : Message} :
    Handled g (g.handleValid r m).1 (g.handleValid r m).2 := by
  unfold handleValid
  split
  · exact .calm inner_resolve
  · exact .calm inner_handleNotification
  · exact handled_handleRequest

theorem handled_handle {id : String} {m : Message} :
    Handled g (g.handle id m).1 (g.handle id m).2 := by
  unfold handle
  split
  · exact .calm rfl
  · rename_i r s hget
    split
    · rename_i hv
      have hi : (g.validate r s m).2.inner = g.inner := rfl
      rw [hv] at hi
      exact .calm hi
    · rename_i g₁ hv
      have hi : (g.validate r s m).2.inner = g.inner := rfl
      have hl : (g.validate r s m).2.sessions.length = g.sessions.length := List.length_set
      rw [hv] at hi hl
      exact handled_handleValid.of_inner hi hl

end Gateway

end AgentGateway
