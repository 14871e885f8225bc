import AgentGateway.Channel

namespace AgentGateway.Channel

variable {α : Type} {c c' : Channel α} {a : α} {p : ProcessId} {next : Option ProcessId}

/-- That the queue is full as long as anybody waits for room. -/
def Backed (c : Channel α) : Prop := c.waiting ≠ [] → c.hasRoom = false

theorem hasRoom_eq_false : c.hasRoom = false ↔ c.capacity ≤ c.queue.length + c.granted.length := by
  simp [hasRoom]

theorem Backed.offer (h : c.Backed) : (c.offer a).2.Backed := by
  unfold Channel.offer
  split
  · exact h
  · split
    · rename_i hroom
      intro hw
      rw [h hw] at hroom
      cases hroom
    · exact h

theorem Backed.offerFor (h : c.Backed) : (c.offerFor p a).2.Backed := by
  unfold Channel.offerFor
  split
  · exact h
  · split
    · rename_i hgranted
      intro hw
      have hfull := hasRoom_eq_false.mp (h hw)
      have hlength := List.length_erase_of_mem hgranted
      have hpos := List.length_pos_of_mem hgranted
      rw [hasRoom_eq_false]
      simp only [push, List.length_append, List.length_singleton]
      omega
    · split
      · exact h
      · split
        · rename_i hroom
          intro hw
          rw [h hw] at hroom
          cases hroom
        · rename_i hroom
          intro _
          exact (Bool.not_eq_true _).mp hroom

theorem backed_grantNext (h : c.waiting ≠ [] → c.capacity ≤ c.queue.length + c.granted.length + 1) :
    c.grantNext.2.Backed := by
  unfold grantNext
  split
  · rename_i hnil
    exact fun hw => absurd hnil hw
  · rename_i q rest hcons
    intro _
    have hfull := h (by simp [hcons])
    rw [hasRoom_eq_false]
    simp only [List.length_append, List.length_singleton]
    omega

theorem Backed.withdraw (h : c.Backed) : (c.withdraw p).2.Backed := by
  unfold Channel.withdraw
  split
  · rename_i hgranted
    refine backed_grantNext fun hw => ?_
    have hfull := hasRoom_eq_false.mp (h hw)
    have hlength := List.length_erase_of_mem hgranted
    have hpos := List.length_pos_of_mem hgranted
    simp only
    omega
  · intro hw
    refine h fun hnil => hw ?_
    simp [hnil]

theorem Backed.take? (h : c.Backed) (ht : c.take? = some (a, next, c')) : c'.Backed := by
  unfold Channel.take? at ht
  split at ht
  · cases ht
  · rename_i b rest hcons
    obtain rfl : _ = c' := congrArg (fun x => x.2.2) (Option.some.inj ht)
    refine backed_grantNext fun hw => ?_
    have hfull := hasRoom_eq_false.mp (h hw)
    rw [hcons, List.length_cons] at hfull
    simp only
    omega

theorem Backed.full_iff (h : c.Backed) : (c.offerFor p a).1 = .full ↔
    c.receiving = true ∧ c.hasRoom = false ∧ p ∉ c.granted := by
  unfold Channel.offerFor
  split
  · rename_i hgone
    simpa using fun hr => by simp [hr] at hgone
  · rename_i hr
    have hr : c.receiving = true := by simpa using hr
    split
    · rename_i hgranted
      simp [hgranted]
    · rename_i hgranted
      split
      · rename_i hw
        simp [hr, hgranted, h (List.ne_nil_of_mem hw)]
      · split
        · rename_i hroom
          simp [hroom]
        · rename_i hroom
          simp [hr, hgranted, hroom]

theorem backed_dropReceiver : c.dropReceiver.2.Backed := fun hw => absurd rfl hw

end AgentGateway.Channel
