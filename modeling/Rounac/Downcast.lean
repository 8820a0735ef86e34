import Rounac.Lifecycle
import Rounac.TopicTypes

/-!
# The downcast of a registered ringmaster

`create_reader::<T>` unwraps the downcast of the ringmaster it finds for its bus topic. The check
before it looks at the client topic. Two client topics with one bus topic may pass it with two
types, and then the downcast fails. It does not fail in the runs in which the types agree on the
bus topic, and these are all (`downcast_ok_iff_types_agree`).

The registry keeps the type because an entry never outlives its readers (`Roster.Backed`).
-/

namespace Rounac

open StepSystem

namespace AsbConnection

variable {Val : Type} {qx : QuickXml Val} {config : AsbConfig} {svcName : String}

variable (config svcName) in
/-- A creation meets live readers of its own type only on its bus topic. -/
def MeetsOwnType (c : AsbConnection Val) (op : Op Val) : Prop :=
  ∀ T cfg, CallsFor config svcName c op T cfg →
    ∀ r ∈ c.readers, r.net.net.topic = some cfg.busTopic → r.ty = T

variable (qx config svcName) in
/-- A creation that finds a ringmaster finds one of its type, and the operation does not panic. -/
def DowncastOk (c : AsbConnection Val) (op : Op Val) : Prop :=
  (∀ T cfg, CallsFor config svcName c op T cfg → ∀ m, c.asb.getCloneFor cfg.busTopic = some m →
    (c.asb.masters m).downcast T = true) ∧
  ∀ c', c.exec qx config svcName op ≠ some (.panicked, c')

/-- **Only a failed downcast panics** on a broker-backed network. -/
theorem not_downcast_of_panicked {c c' : AsbConnection Val} {op : Op Val} (hc : c.Brokered)
    (h : c.exec qx config svcName op = some (.panicked, c')) :
    ∃ T cfg e, CallsFor config svcName c op T cfg ∧
      c.asb.readers.lookup cfg.busTopic = some e ∧
      ¬ (c.asb.masters e.ringmaster).downcast T := by
  obtain ⟨T, topic, reply, id, topics, cfg, asb, rfl, htop, hcfg, hnet⟩ := exec_panicked h
  rcases createOnNet_cases hc T topic cfg reply id with
    ⟨_, r', asb', -, -, hnet', -⟩ | ⟨e, he, hT, -⟩ | ⟨-, _, _, hnet', -⟩ | ⟨-, r', asb', hnet', -⟩
  · exact absurd (Prod.mk.inj (hnet.symm.trans hnet')).1 (by simp)
  · exact ⟨T, cfg, e, ⟨topic, reply, id, rfl, ⟨topics, htop⟩, hcfg⟩, he, hT⟩
  · exact absurd (Prod.mk.inj (hnet.symm.trans hnet')).1 (by simp)
  · exact absurd (Prod.mk.inj (hnet.symm.trans hnet')).1 (by simp)

/-- In a sound state whose readers agree with the call, the registered ringmaster is of its type:
some live reader holds it. -/
theorem downcastOk_of_meetsOwnType {c : AsbConnection Val} {op : Op Val} (h : c.Sound)
    (hop : c.MeetsOwnType config svcName op) : c.DowncastOk qx config svcName op := by
  have hdown : ∀ T cfg e, CallsFor config svcName c op T cfg →
      c.asb.readers.lookup cfg.busTopic = some e →
      (c.asb.masters e.ringmaster).downcast T = true := by
    intro T cfg e hcall he
    obtain ⟨r, hr, ht, hm⟩ := h.backed.exists_attached he
    have hty : (c.asb.masters r.ringmaster).ty = r.ty := h.grounded.typed r hr
    rw [ReaderRingMaster.downcast, beq_iff_eq, ← hm, hty]
    exact hop T cfg hcall r hr ht
  constructor
  · intro T cfg hcall m hm
    obtain ⟨e, he, rfl⟩ := Option.map_eq_some_iff.1 hm
    exact hdown T cfg e hcall he
  · intro c' hpan
    obtain ⟨T, cfg, e, hcall, he, hno⟩ := not_downcast_of_panicked h.brokered hpan
    exact hno (hdown T cfg e hcall he)

/-- While the counts are exact, every live reader of the bus topic holds the ringmaster that the
call downcasts. -/
theorem meetsOwnType_of_downcastOk {c : AsbConnection Val} {op : Op Val} (h : c.Sound)
    (hex : c.roster.Exact) (hop : c.DowncastOk qx config svcName op) :
    c.MeetsOwnType config svcName op := by
  intro T cfg hcall r hr ht
  obtain ⟨e, he, hm⟩ := hex.entry_of_mem hr ht
  have hdown := hop.1 T cfg hcall e.ringmaster (by
    rw [NetAsb.getCloneFor, show c.asb.readers.lookup cfg.busTopic = some e from he]; rfl)
  have hty : (c.asb.masters r.ringmaster).ty = r.ty := h.grounded.typed r hr
  rw [ReaderRingMaster.downcast, beq_iff_eq, ← hm, hty] at hdown
  exact hdown

/-- **The downcast succeeds in the runs whose creations meet their own type** on the bus topic,
and, while the registry can count the readers, in no others. -/
theorem downcast_ok_iff_types_agree (kind : NetworkKind) (hkind : kind = .amqp ∨ kind = .mqtt)
    (exchange : Option String) (is : List (Op Val))
    (hops : EachStep (step qx config svcName) (fun _ op => op.isPollError = false)
      (connected kind exchange) is) :
    (EachStep (step qx config svcName) (MeetsOwnType config svcName) (connected kind exchange) is →
      EachStep (step qx config svcName) (DowncastOk qx config svcName)
        (connected kind exchange) is) ∧
    (Always (step qx config svcName) Few (connected kind exchange) is →
      EachStep (step qx config svcName) (DowncastOk qx config svcName)
        (connected kind exchange) is →
      EachStep (step qx config svcName) (MeetsOwnType config svcName)
        (connected kind exchange) is) := by
  constructor
  · intro hmeet
    have hsound : Always (step qx config svcName) Sound (connected kind exchange) is :=
      Always.of_inv (fun c op c' h hop hs => h.step hop hs) (sound_connected hkind exchange) hops
    refine EachStep.of_always (fun c op h hop => ?_) hsound hmeet
    exact downcastOk_of_meetsOwnType h hop
  · intro hc hok
    refine EachStep.of_always (fun c op h hop => ?_) (always_exact hkind exchange hops hc) hok
    exact meetsOwnType_of_downcastOk h.1 h.2 hop

/-- Two client topics with one bus topic, and one type. -/
theorem downcast_ok_shared_bus_topic :
    EachStep (step .unit (.withBusTopics "svc" [("a", "X"), ("b", "X")]) "svc")
      (DowncastOk .unit (.withBusTopics "svc" [("a", "X"), ("b", "X")]) "svc")
      (connected .mqtt none)
      [.createReader ⟨0⟩ "a" .accepting 1, .createReader ⟨0⟩ "b" .accepting 2] := by
  refine (downcast_ok_iff_types_agree .mqtt (.inr rfl) none _ (by decide)).1 ?_
  refine (eachStep_cons_iff rfl).2 ⟨?_, (eachStep_cons_iff rfl).2 ⟨?_, trivial⟩⟩
  · intro T cfg _ r hr
    cases hr
  · rintro T cfg ⟨topic, reply, id, ⟨⟩, -, -⟩ r hr -
    exact congrArg AsbReader.ty (List.mem_singleton.1 hr)

/-- Two client topics with one bus topic, each with readers of one type, and not the same: the
second creation panics. -/
theorem two_types_on_a_bus_topic_panic :
    Always (step .unit (.withBusTopics "svc" [("a", "X"), ("b", "X")]) "svc") OneType
      (connected .mqtt none)
      [.createReader ⟨0⟩ "a" .accepting 1, .createReader ⟨1⟩ "b" .accepting 2] ∧
    ∃ c c' : AsbConnection Unit,
      run (step .unit (.withBusTopics "svc" [("a", "X"), ("b", "X")]) "svc") (connected .mqtt none)
        [.createReader ⟨0⟩ "a" .accepting 1] = some c ∧
      c.exec .unit (.withBusTopics "svc" [("a", "X"), ("b", "X")]) "svc"
        (.createReader ⟨1⟩ "b" .accepting 2) = some (.panicked, c') :=
  ⟨by decide, _, _, rfl, rfl⟩

end AsbConnection

end Rounac
