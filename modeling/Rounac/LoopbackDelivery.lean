import Rounac.ReaderlessNetworks

/-!
# Delivery on the loopback

Every creation of a loopback reader that gets to the network part panics, so no loopback connection
ever has a reader. Delivery is as it should be in exactly the runs that create no reader
(`loopback_delivers_iff_no_creation`).
-/

namespace Rounac

open StepSystem OverwriteRing

namespace AsbConnection

variable {Val : Type} {qx : QuickXml Val} {config : AsbConfig} {svcName : String}

variable (qx config svcName) in
/-- The operation does not panic; and if it writes a message, the message is pushed once into the
ring of every live reader on the writer's bus topic, and into no other ring. -/
def Delivers (c : AsbConnection Val) (op : Op Val) : Prop :=
  (∀ c', c.exec qx config svcName op ≠ some (.panicked, c')) ∧
  ∀ i msg now reply w c', op = .write i msg now reply → c.writers[i]? = some w →
    c.step qx config svcName op = some c' → ∀ ρ, c'.asb.rings ρ =
      if ∃ r ∈ c.readers, r.net.net.topic = some w.busTopic ∧ r.buffer = ρ
      then (c.asb.rings ρ).send (now, msg) else c.asb.rings ρ

theorem delivers_iff_of_idle {c : AsbConnection Val} {op : Op Val} (h : c.Idle) :
    c.Delivers qx config svcName op ↔ c.CreatesNoReader config svcName op := by
  constructor
  · intro hdel T cfg hcall
    obtain ⟨c', hpan⟩ := (panics_iff_of_idle h).2 ⟨T, cfg, hcall⟩
    exact hdel.1 c' hpan
  · intro hno
    constructor
    · intro c' hpan
      obtain ⟨T, cfg, hcall⟩ := (panics_iff_of_idle h).1 ⟨c', hpan⟩
      exact hno T cfg hcall
    · rintro i msg now reply w c' rfl hw hs ρ
      obtain ⟨w', hw', rfl⟩ := step_write hs
      rw [write_of_idle h w' msg now reply, if_neg]
      simp [h.noReader]

/-- **Delivery on the loopback is right in exactly the runs that create no reader.** -/
theorem loopback_delivers_iff_no_creation (exchange : Option String) (is : List (Op Val)) :
    EachStep (step qx config svcName) (Delivers qx config svcName)
      (connected .loopback exchange) is ↔
    EachStep (step qx config svcName) (CreatesNoReader config svcName)
      (connected .loopback exchange) is :=
  EachStep.iff_of_inv Idle (fun _ _ _ h _ => delivers_iff_of_idle h) (fun _ _ _ h _ hs => h.step hs)
    is (idle_connected (.inl rfl) exchange)

/-- The creation of a reader on a new loopback connection panics. -/
theorem loopback_creation_panics :
    ∃ c' : AsbConnection Unit,
      (connected .loopback none).exec .unit (.withBusTopics "svc" []) "svc"
        (.createReader ⟨0⟩ "t" .accepting 1) = some (.panicked, c') :=
  ⟨_, rfl⟩

end AsbConnection

end Rounac
