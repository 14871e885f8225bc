import AgentGateway.Proofs.Frame

namespace AgentGateway

def Delivery.message : Delivery → Message
  | .fresh m => m
  | .waiting m => m

namespace Gateway

variable {g g' : Gateway} {p : ProcessId} {r : SessionRef}

def outbox (r : SessionRef) (g : Gateway) : List Message :=
  (g.session? r).elim [] fun s => s.outbound.queue

def IsOpen (r : SessionRef) (g : Gateway) : Prop :=
  ∃ s, g.session? r = some s ∧ s.outbound.attached = true ∧ s.outbound.receiving = true

theorem outbox_of_desk (h : g'.desk = g.desk) : g'.outbox r = g.outbox r := by
  rw [outbox, outbox, session?_of_desk h]

theorem outbox_setSession {s t : Session} (h : g.session? r = some s) :
    (g.setSession r t).outbox r = t.outbound.queue := by
  have hr : r < g.sessions.length := lt_of_session? h
  simp [outbox, session?, setSession, hr]

theorem offerFor_cases {α : Type} (c : Channel α) (a : α) :
    (∃ c', c.offerFor p a = (.sent, c') ∧ c'.queue = c.queue ++ [a]) ∨
      (∃ c', c.offerFor p a = (.full, c') ∧ c'.queue = c.queue) ∨
      (c.offerFor p a = (.disconnected, c) ∧ c.receiving = false) := by
  unfold Channel.offerFor
  split
  · rename_i h
    exact .inr (.inr ⟨rfl, by simpa using h⟩)
  · split
    · exact .inl ⟨_, rfl, rfl⟩
    · split
      · exact .inr (.inl ⟨_, rfl, rfl⟩)
      · split
        · exact .inl ⟨_, rfl, rfl⟩
        · exact .inr (.inl ⟨_, rfl, rfl⟩)

inductive Delivered (r : SessionRef) (d : Delivery) (g : Gateway) : DeliveryState → Gateway → Prop
  | sent {g' : Gateway} : g'.outbox r = g.outbox r ++ [d.message] → Delivered r d g .sent g'
  | pending {d' : Delivery} {g' : Gateway} : g'.outbox r = g.outbox r → d'.message = d.message →
      Delivered r d g (.pending d') g'
  | failed {e : SessionError} : ¬ g.IsOpen r → Delivered r d g (.failed e) g

theorem delivered_attempt {s : Session} {m : Message} (hs : g.session? r = some s)
    (hm : m = d.message) :
    let x := match s.outbound.offerFor p m with
      | (.sent, outbound) => (DeliveryState.sent, g.setSession r { s with outbound })
      | (.full, outbound) => (.pending (.waiting m), g.setSession r { s with outbound })
      | (.disconnected, _) => (.failed (.disconnected s.id), g)
    Delivered r d g x.1 x.2 := by
  have hbox : g.outbox r = s.outbound.queue := by simp [outbox, hs]
  rcases offerFor_cases (p := p) s.outbound m with ⟨c, h, hc⟩ | ⟨c, h, hc⟩ | ⟨h, hc⟩
  · simp only [h]
    exact .sent (by rw [outbox_setSession hs, hbox, hc, hm])
  · simp only [h]
    exact .pending (by rw [outbox_setSession hs, hbox, hc]) hm
  · simp only [h]
    refine .failed ?_
    rintro ⟨s', hs', -, hr⟩
    cases hs.symm.trans hs'
    simp [hc] at hr

theorem delivered_deliver (d : Delivery) :
    Delivered r d g (g.deliver p r d).1 (g.deliver p r d).2 := by
  unfold deliver
  cases hs : g.session? r with
  | none =>
      refine .failed ?_
      rintro ⟨s, hs', -⟩
      simp [hs] at hs'
  | some s =>
      cases d with
      | fresh m =>
          dsimp only
          split
          · exact delivered_attempt hs rfl
          · rename_i ha
            refine .failed ?_
            rintro ⟨s', hs', ha', -⟩
            cases hs.symm.trans hs'
            exact ha ha'
      | waiting m => exact delivered_attempt hs rfl

end Gateway

end AgentGateway
