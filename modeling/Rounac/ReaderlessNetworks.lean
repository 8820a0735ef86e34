import Rounac.Networks.Roster
import Rounac.TopicTypes

/-!
# Networks without readers

On two of the networks every creation that gets to the network part panics.
`create_loopback_reader` counts its reader in the registry with `add_reader(..).unwrap()`, and
nothing ever puts an entry there; `create_null_reader` asks for a ring of capacity zero. So no
connection to either ever has a reader (`Idle.step`), and an operation panics exactly when it is
such a creation (`panics_iff_of_idle`).
-/

namespace Rounac

open StepSystem

namespace AsbConnection

variable {Val : Type} {qx : QuickXml Val} {config : AsbConfig} {svcName : String}

variable (config svcName) in
/-- The operation is no creation of a reader that gets to the network part. -/
def CreatesNoReader (c : AsbConnection Val) (op : Op Val) : Prop :=
  ∀ T cfg, ¬ CallsFor config svcName c op T cfg

/-- A connection to a loopback or null network, with no reader and nothing registered. -/
structure Idle (c : AsbConnection Val) : Prop where
  kind : c.kind = .loopback ∨ c.kind = .null
  noReader : c.readers = []
  noEntry : c.asb.readers = ∅

theorem idle_connected {kind : NetworkKind} (h : kind = .loopback ∨ kind = .null)
    (exchange : Option String) : (connected kind exchange : AsbConnection Val).Idle :=
  ⟨h, rfl, rfl⟩

/-- The network part of a creation panics: there is no entry to count the reader in, or no ring. -/
theorem createOnNet_of_idle {c : AsbConnection Val} (h : c.Idle) (T : TypeId) (topic : String)
    (cfg : BusConfig) (reply : BrokerReply) (id : SenderId) :
    ∃ asb, c.createOnNet T topic cfg reply id = (.panicked, asb) ∧ asb.readers = ∅ := by
  unfold createOnNet
  rcases h.kind with hk | hk <;> rw [hk]
  · unfold NetAsb.createLoopbackReader LoopbackAsb.addReader NetAsb.addReader
    simp [NetAsb.newMaster, NetAsb.ringBounded, NetAsb.modifyMaster, h.noEntry]
  · exact ⟨_, NetAsb.createNullReader_eq c.asb T topic cfg, h.noEntry⟩

/-- A creation on an idle connection is rejected, or panics. -/
theorem createReader_of_idle {c : AsbConnection Val} (h : c.Idle) (T : TypeId) (topic : String)
    (reply : BrokerReply) (id : SenderId) :
    (c.createReader config svcName T topic reply id).2.Idle ∧
    ((c.createReader config svcName T topic reply id).1 = .panicked ↔
      c.Accepts T topic ∧ ∃ cfg, getBusConfig config svcName topic = .ok cfg) := by
  rcases createReader_cases config svcName c T topic reply id with
    ⟨e, hctr, heq⟩ | ⟨topics, hctr, ⟨e, hcfg, heq⟩ | ⟨cfg, hcfg, hnet⟩⟩
  · refine ⟨heq ▸ h, ?_⟩
    rw [heq]
    constructor
    · intro hpan
      cases hpan
    · rintro ⟨⟨topics, htop⟩, -⟩
      rw [hctr] at htop
      cases htop
  · refine ⟨heq ▸ ⟨h.kind, h.noReader, h.noEntry⟩, ?_⟩
    rw [heq]
    constructor
    · intro hpan
      cases hpan
    · rintro ⟨-, cfg, hok⟩
      rw [hcfg] at hok
      cases hok
  · -- Past both checks the network itself panics, whatever is asked of it.
    obtain ⟨asb, hpan, hempty⟩ := createOnNet_of_idle h T topic cfg reply id
    rcases hnet with ⟨r, asb', hnet, -⟩ | ⟨res, asb', hnet, -, heq⟩
    · exact absurd (Prod.mk.inj (hpan.symm.trans hnet)).1 (by simp)
    · obtain ⟨rfl, rfl⟩ := Prod.mk.inj (hpan.symm.trans hnet)
      refine ⟨heq ▸ ⟨h.kind, h.noReader, hempty⟩, ?_⟩
      rw [heq]
      exact ⟨fun _ => ⟨⟨topics, hctr⟩, cfg, hcfg⟩, fun _ => rfl⟩

theorem write_of_idle {c : AsbConnection Val} (h : c.Idle) (w : AsbWriter) (msg : Val)
    (now : Instant) (reply : Except CalError Unit) :
    (c.write qx w msg now reply).2 = c := by
  obtain ⟨hkind, -, hempty⟩ := h
  cases c
  dsimp only at hkind hempty
  unfold write
  cases serializeMsg qx w.ty w.format msg with
  | error e => rfl
  | ok data =>
    rcases hkind with rfl | rfl
    · dsimp only [LoopbackAsb.publish]
      split_ifs with hshut
      · rfl
      · simp [LoopbackAsb.handleMsg, NetAsb.handleMsg, hshut, hempty]
    · rfl

theorem Idle.step {c c' : AsbConnection Val} {op : Op Val} (h : c.Idle)
    (hs : c.step qx config svcName op = some c') : c'.Idle := by
  have hnone : ∀ {i : ℕ} {r : AsbReader}, c.readers[i]? = some r → False := by
    intro i r hr
    simp [h.noReader] at hr
  have hkind : c'.kind = .loopback ∨ c'.kind = .null := by
    rw [(step_frame hs).1]
    exact h.kind
  cases step_rosterStep hs with
  | @created T topic reply id => exact (createReader_of_idle h T topic reply id).1
  | cloned hr => exact (hnone hr).elim
  | dropped hr => exact (hnone hr).elim
  | shutDown hmqtt => rcases h.kind with hk | hk <;> cases hmqtt.symm.trans hk
  | kept _ hros =>
    exact ⟨hkind, (congrArg Roster.live hros).trans h.noReader,
      (congrArg Roster.entries hros).trans h.noEntry⟩

/-- Nothing but a creation that gets to the network part panics. -/
theorem panics_iff_of_idle {c : AsbConnection Val} {op : Op Val} (h : c.Idle) :
    (∃ c', c.exec qx config svcName op = some (.panicked, c')) ↔
      ∃ T cfg, CallsFor config svcName c op T cfg := by
  constructor
  · rintro ⟨c', hpan⟩
    obtain ⟨T, topic, reply, id, topics, cfg, asb, rfl, htop, hcfg, -⟩ := exec_panicked hpan
    exact ⟨T, cfg, topic, reply, id, rfl, ⟨topics, htop⟩, hcfg⟩
  · rintro ⟨T, cfg, topic, reply, id, rfl, hacc, hcfg⟩
    refine ⟨(c.createReader config svcName T topic reply id).2, ?_⟩
    rw [exec_createReader, (createReader_of_idle h T topic reply id).2.2 ⟨hacc, cfg, hcfg⟩]

end AsbConnection

end Rounac
