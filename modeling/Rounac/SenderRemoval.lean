import Rounac.Lib.DrawnIds
import Rounac.Lifecycle
import Rounac.ReaderlessNetworks

/-!
# Removal of senders

`add_sender` registers a sender under a random id, and the drop of a reader removes the first sender
of its ringmaster with the id that the reader holds. That is the reader's own sender in exactly the
runs in which no sender gets an id that a live reader of its ringmaster has already
(`dropsOwn_iff_fresh`). It is so on every network, through drops, unsubscriptions and shutdowns.

* `Roster.registry` — the ids that readers hold, and the senders of the ringmasters.
* `AsbConnection.Registers` — what a step of a connection does to it.
-/

namespace Rounac

open StepSystem SwapRemove DrawnIds

/-! ## The registry of a roster -/

/-- What a reader removes its sender by. -/
def AsbReader.ticket (r : AsbReader) : Ticket MasterId SenderId :=
  ⟨r.ringmaster, r.mySenderId, r.buffer⟩

namespace Roster

/-- The live readers hold the ids of their senders. -/
def registry (s : Roster) : Registry MasterId SenderId where
  tickets := s.live.map AsbReader.ticket
  elements := s.senders
  next := s.nextRing

variable {s s' : Roster} {r : AsbReader}

theorem registry_enlist (hbuf : r.buffer = s.nextRing) :
    Registry.Step s.registry (s.enlist r).registry (some r.ticket) := by
  refine .added hbuf rfl List.map_append (List.Subperm.refl (s.senders r.ringmaster))
    (Function.update_self _ _ _) fun m hm => ?_
  have hne : m ≠ r.ringmaster := hm
  show (Function.update s.senders r.ringmaster _ m).Subperm (s.senders m)
  rw [Function.update_of_ne hne]

/-- A topic is opened with a ringmaster that has no sender but that of the first reader. -/
theorem registry_opened {topic tag : String} {T : TypeId} {e : Entry}
    (hm : r.ringmaster = s.nextMaster) (hbuf : r.buffer = s.nextRing) :
    Registry.Step s.registry ((s.subscribe topic tag T).register topic e r).registry
      (some r.ticket) := by
  refine .added hbuf rfl List.map_append List.nil_subperm ?_ fun m hother => ?_
  · refine (Function.update_self _ _ _).trans ?_
    show Function.update s.senders s.nextMaster [] r.ringmaster ++ _ = _
    rw [hm, Function.update_self]
    rfl
  · have hne : m ≠ r.ringmaster := hother
    have hne' : m ≠ s.nextMaster := hm ▸ hne
    show (Function.update (Function.update s.senders s.nextMaster []) r.ringmaster _ m).Subperm
      (s.senders m)
    rw [Function.update_of_ne hne, Function.update_of_ne hne']

theorem dropNet_senders_subperm (s : Roster) (net : AsbReaderNet) (m : MasterId) :
    ((s.dropNet net).senders m).Subperm (s.senders m) := by
  unfold dropNet
  split
  · exact List.Subperm.refl _
  · split_ifs
    · rename_i topic e _ _
      show (Function.update s.senders e.ringmaster [] m).Subperm _
      by_cases hm : m = e.ringmaster
      · rw [hm, Function.update_self]
        exact List.nil_subperm
      · rw [Function.update_of_ne hm]
    · exact List.Subperm.refl _

@[simp] theorem dropNet_nextRing (s : Roster) (net : AsbReaderNet) :
    (s.dropNet net).nextRing = s.nextRing := by
  unfold dropNet
  split
  · rfl
  · split_ifs <;> rfl

/-- A drop removes the sender of the reader, and perhaps all others of a ringmaster. -/
theorem discharge_senders_subperm (s : Roster) (i : ℕ) (r : AsbReader) (m : MasterId) :
    ((s.discharge i r).senders m).Subperm ((s.silence r).senders m) := by
  unfold discharge
  dsimp only
  split_ifs
  · exact List.Subperm.refl _
  · exact dropNet_senders_subperm _ _ m

theorem silence_senders_subperm (s : Roster) (r : AsbReader) (m : MasterId) :
    ((s.silence r).senders m).Subperm (s.senders m) := by
  show (Function.update s.senders r.ringmaster _ m).Subperm _
  by_cases hm : m = r.ringmaster
  · subst hm
    rw [Function.update_self]
    exact removeFirst_subperm _ _
  · rw [Function.update_of_ne hm]

/-- **A drop in a sound registry** takes out the sender of the reader that holds the id. -/
theorem registry_discharge (h : s.registry.Sound) {i : ℕ} (hi : s.live[i]? = some r) :
    Registry.Step s.registry (s.discharge i r).registry none := by
  have hring : (s.discharge i r).nextRing = s.nextRing := by
    unfold discharge
    dsimp only
    split_ifs
    · rfl
    · exact dropNet_nextRing _ _
  refine .shrunk (Nat.le_of_eq hring.symm) ?_ (fun m => ?_) fun t ht hmem => ?_
  · show ((s.discharge i r).live.map AsbReader.ticket).Subperm (s.live.map AsbReader.ticket)
    rw [discharge_live]
    exact ((List.eraseIdx_sublist s.live i).map _).subperm
  · exact (discharge_senders_subperm s i r m).trans (silence_senders_subperm s r m)
  · obtain ⟨o, ho, rfl⟩ := List.mem_map.1 ht
    show o.ticket ∈ (s.discharge i r).live.map AsbReader.ticket
    rw [discharge_live]
    have hperm := TaskPool.perm_eraseIdx hi
    rcases List.mem_cons.1 (hperm.mem_iff.1 ho) with rfl | ho
    · -- The sender of the reader that is dropped is not among those that stay.
      have hmem' := (discharge_senders_subperm s i o o.ringmaster).subset hmem
      have hhits := h.exact o.ticket ht
      have hself : (s.silence o).senders o.ringmaster =
          (removeFirst (fun b => b.1 == o.mySenderId) (s.senders o.ringmaster)).2 :=
        Function.update_self _ _ _
      rw [hself] at hmem'
      have hkept := List.mem_filter.1 (hhits.mem_iff.1 hmem')
      simpa using hkept.2
    · exact List.mem_map_of_mem ho

/-- **A move of the roster is a step of its registry.** -/
theorem Move.registry_step {d : Option ℕ} (hmove : s.Move d s') (h : s.registry.Sound) :
    ∃ o, Registry.Step s.registry s'.registry o := by
  cases hmove with
  | idle => exact ⟨none, .refl _⟩
  | @join topic e r _ _ _ hbuf => exact ⟨_, registry_enlist hbuf⟩
  | opened _ hm hbuf => exact ⟨_, registry_opened hm hbuf⟩
  | cloned _ _ _ _ hbuf => exact ⟨_, registry_enlist hbuf⟩
  | dropped hi => exact ⟨none, registry_discharge h hi⟩

end Roster

/-! ## Connections -/

namespace NetAsb

variable {Val : Type} {asb asb' : NetAsb Val}

theorem attachReader_sender {m : MasterId} {net : String → AsbReaderNet} {T : TypeId}
    {counter : String} {config : BusConfig} {id : SenderId} {r : AsbReader}
    (h : asb.attachReader m net T counter config id = (.ok r, asb')) :
    r.mySenderId = id ∧ r.ringmaster = m := by
  unfold attachReader at h
  cases hadd : asb.addReader config.busTopic with
  | none => rw [hadd] at h; cases h
  | some asb₁ =>
    rw [hadd] at h
    cases h
    exact ⟨rfl, rfl⟩

/-- A reader of a broker-backed network has the id that was drawn, and the ringmaster of the entry,
if there is one. -/
theorem createBrokerReader_sender
    {subscribe : NetAsb Val → BusConfig → BrokerReply → Except CalError String × NetAsb Val}
    {net : String → AsbReaderNet} {T : TypeId} {counter : String} {config : BusConfig}
    {reply : BrokerReply} {id : SenderId} {r : AsbReader}
    (hsub : (subscribe asb config reply).2.nextMaster = asb.nextMaster)
    (h : createBrokerReader subscribe net asb T counter config reply id = (.ok r, asb')) :
    r.mySenderId = id ∧
      r.ringmaster = ((asb.readers.lookup config.busTopic).map Entry.ringmaster).getD
        asb.nextMaster := by
  unfold createBrokerReader at h
  rw [getCloneFor] at h
  cases hl : asb.readers.lookup config.busTopic with
  | some e =>
    simp only [hl, Option.map_some] at h
    split_ifs at h
    · exact attachReader_sender h
    · cases h
  | none =>
    simp only [hl, Option.map_none] at h
    rcases hs : subscribe asb config reply with ⟨res, asb₁⟩
    rw [hs] at h hsub
    cases res with
    | error e => cases h
    | ok tag =>
      obtain ⟨hid, hm⟩ := attachReader_sender h
      exact ⟨hid, hm.trans hsub⟩

end NetAsb

namespace AsbConnection

variable {Val : Type} {qx : QuickXml Val} {config : AsbConfig} {svcName : String}
  {c c' : AsbConnection Val} {op : Op Val}

def registry (c : AsbConnection Val) : Registry MasterId SenderId := c.roster.registry

/-- The removal of its sender by a live reader takes out this sender, if it is there, and no
other. -/
def DropsOwn (c : AsbConnection Val) : Prop :=
  ∀ r ∈ c.readers, ((c.asb.masters r.ringmaster).removeSender r.mySenderId).2.senders.Perm
    ((c.asb.masters r.ringmaster).senders.filter fun x => x.2 ≠ r.buffer)

theorem dropsOwn_iff (c : AsbConnection Val) : c.DropsOwn ↔ c.registry.Exact :=
  (List.forall_mem_map (l := c.readers) (f := AsbReader.ticket) (P := c.registry.Hits)).symm

/-- The operation registers a sender under `id` with the ringmaster `m` that is there: it creates a
reader on a topic that is subscribed to, or clones a reader. -/
inductive Joins (config : AsbConfig) (svcName : String) (c : AsbConnection Val) :
    Op Val → MasterId → SenderId → Prop
  | created {T : TypeId} {topic : String} {reply : BrokerReply} {id : SenderId} {cfg : BusConfig}
      {e : Entry} (haccepts : c.Accepts T topic)
      (hcfg : getBusConfig config svcName topic = .ok cfg)
      (he : c.asb.readers.lookup cfg.busTopic = some e)
      (hty : (c.asb.masters e.ringmaster).downcast T) :
      Joins config svcName c (.createReader T topic reply id) e.ringmaster id
  | cloned {i : ℕ} {id : SenderId} {r : AsbReader} (hr : c.readers[i]? = some r) :
      Joins config svcName c (.cloneReader i id) r.ringmaster id

variable (config svcName) in
/-- A sender that is registered with a ringmaster gets an id that no live reader of the ringmaster
has. -/
def FreshSender (c : AsbConnection Val) (op : Op Val) : Prop :=
  ∀ m id, c.Joins config svcName op m id → ∀ r ∈ c.readers, r.ringmaster = m → r.mySenderId ≠ id

variable (config svcName) in
/-- The registry takes a step under which the tickets for a ringmaster that is there are those of
the senders registered with it. -/
structure Registers (c : AsbConnection Val) (op : Op Val) (c' : AsbConnection Val)
    (o : Option (Ticket MasterId SenderId)) : Prop where
  step : Registry.Step c.registry c'.registry o
  joins : ∀ t, o = some t →
    c.Joins config svcName op t.place t.id ∨ ∀ r ∈ c.readers, r.ringmaster ≠ t.place
  handed : ∀ m id, c.Joins config svcName op m id → ∃ t, o = some t ∧ t.place = m ∧ t.id = id

/-- The ids are fresh exactly when the ticket handed out is. -/
theorem Registers.fresh_iff {o : Option (Ticket MasterId SenderId)}
    (h : c.Registers config svcName op c' o) :
    c.FreshSender config svcName op ↔ ∀ t, o = some t → c.registry.Fresh t := by
  constructor
  · intro hfresh t ht u hu hplace
    obtain ⟨r, hr, rfl⟩ := List.mem_map.1 hu
    rcases h.joins t ht with hjoin | halone
    · exact hfresh t.place t.id hjoin r hr hplace
    · exact absurd hplace (halone r hr)
  · intro hfresh m id hjoin r hr hm
    obtain ⟨t, ht, rfl, rfl⟩ := h.handed m id hjoin
    exact hfresh t ht r.ticket (List.mem_map_of_mem hr) hm

theorem registers_none (hstep : Registry.Step c.registry c'.registry none)
    (hno : ∀ m id, ¬ c.Joins config svcName op m id) : c.Registers config svcName op c' none where
  step := hstep
  joins := fun t ht => by cases ht
  handed := fun m id hjoin => absurd hjoin (hno m id)

theorem not_joins_of_keepsRoster (hop : op.keepsRoster = true) (m : MasterId) (id : SenderId) :
    ¬ c.Joins config svcName op m id := by
  intro hjoin
  cases hjoin <;> cases hop

/-- The ends of the network part of a creation, on the registry. -/
inductive Enrolls (c : AsbConnection Val) (T : TypeId) (cfg : BusConfig) (id : SenderId) :
    Res AsbReader → NetAsb Val → Prop
  | joined {r : AsbReader} {asb : NetAsb Val} {e : Entry}
      (he : c.asb.readers.lookup cfg.busTopic = some e)
      (hty : (c.asb.masters e.ringmaster).downcast T) (hm : r.ringmaster = e.ringmaster)
      (hid : r.mySenderId = id)
      (hstep : Registry.Step c.registry (asb.roster (c.readers ++ [r])).registry (some r.ticket)) :
      Enrolls c T cfg id (.ok r) asb
  | opened {r : AsbReader} {asb : NetAsb Val} (hnone : c.asb.readers.lookup cfg.busTopic = none)
      (halone : ∀ o ∈ c.readers, o.ringmaster ≠ r.ringmaster)
      (hstep : Registry.Step c.registry (asb.roster (c.readers ++ [r])).registry (some r.ticket)) :
      Enrolls c T cfg id (.ok r) asb
  | failed {res : Res AsbReader} {asb : NetAsb Val} (hres : ∀ r, res ≠ .ok r)
      (hno : ∀ e, c.asb.readers.lookup cfg.busTopic = some e →
        ¬ (c.asb.masters e.ringmaster).downcast T)
      (hsame : (asb.roster c.readers).registry = c.registry) :
      Enrolls c T cfg id res asb

theorem registers_createReader {T : TypeId} {topic : String} {reply : BrokerReply} {id : SenderId}
    (hends : ∀ cfg, c.Enrolls T cfg id (c.createOnNet T topic cfg reply id).1
      (c.createOnNet T topic cfg reply id).2) :
    ∃ o, c.Registers config svcName (.createReader T topic reply id)
      (c.createReader config svcName T topic reply id).2 o := by
  rcases createReader_cases config svcName c T topic reply id with
    ⟨e, hctr, heq⟩ | ⟨topics, hctr, ⟨e, hcfg, heq⟩ | ⟨cfg, hcfg, hnet⟩⟩
  · refine ⟨none, registers_none (heq ▸ .refl _) fun m id' hjoin => ?_⟩
    cases hjoin with
    | created haccepts =>
      obtain ⟨topics, hok⟩ := haccepts
      rw [hctr] at hok
      cases hok
  · refine ⟨none, registers_none (heq ▸ .refl _) fun m id' hjoin => ?_⟩
    cases hjoin with
    | created _ hok =>
      rw [hcfg] at hok
      cases hok
  · -- A call that joins does so with this configuration.
    have hjoins : ∀ m id', c.Joins config svcName (.createReader T topic reply id) m id' →
        ∃ e, c.asb.readers.lookup cfg.busTopic = some e ∧
          (c.asb.masters e.ringmaster).downcast T ∧ e.ringmaster = m ∧ id = id' := by
      intro m id' hjoin
      cases hjoin with
      | created _ hok he hty =>
        rw [hcfg] at hok
        cases hok
        exact ⟨_, he, hty, rfl, rfl⟩
    have hend := hends cfg
    rcases hnet with ⟨r, asb, hnet, heq⟩ | ⟨res, asb, hnet, hres, heq⟩ <;> rw [hnet] at hend <;>
      rw [heq]
    · cases hend with
      | @joined _ _ e he hty hm hid hstep =>
        refine ⟨some r.ticket, hstep, fun t ht => .inl ?_, fun m id' hjoin => ?_⟩
        · cases ht
          show c.Joins config svcName _ r.ringmaster r.mySenderId
          rw [hm, hid]
          exact .created ⟨topics, hctr⟩ hcfg he hty
        · obtain ⟨e', he', -, rfl, rfl⟩ := hjoins m id' hjoin
          rw [he] at he'
          cases he'
          exact ⟨_, rfl, hm, hid⟩
      | opened hnone halone hstep =>
        refine ⟨some r.ticket, hstep, fun t ht => .inr ?_, fun m id' hjoin => ?_⟩
        · cases ht
          exact halone
        · obtain ⟨e, he, -⟩ := hjoins m id' hjoin
          rw [hnone] at he
          cases he
      | failed hno => exact absurd rfl (hno r)
    · cases hend with
      | joined => exact absurd rfl (hres _)
      | opened => exact absurd rfl (hres _)
      | failed _ hno hsame =>
        refine ⟨none, registers_none ?_ fun m id' hjoin => ?_⟩
        · show Registry.Step c.registry (asb.roster c.readers).registry none
          rw [hsame]
          exact .refl _
        · obtain ⟨e, he, hty, -⟩ := hjoins m id' hjoin
          exact hno e he hty

theorem registry_pollError (c : AsbConnection Val) :
    Registry.Step c.registry c.pollError.registry none := by
  refine .shrunk (Nat.le_refl _) (List.Subperm.refl _) (fun m => ?_) fun _ ht _ => ht
  show (c.asb.shutdown.masters m).senders.Subperm (c.asb.masters m).senders
  simp only [NetAsb.shutdown, NetAsb.shutdownMasters_apply]
  split_ifs
  · exact List.nil_subperm
  · exact List.Subperm.refl _

/-- **The step of a connection on its registry**, with the creations taken as given. -/
theorem RosterStep.exists_registers (h : c.RosterStep config svcName op c')
    (hsound : c.registry.Sound)
    (hcreate : ∀ T topic cfg reply id, c.Enrolls T cfg id (c.createOnNet T topic cfg reply id).1
      (c.createOnNet T topic cfg reply id).2) : ∃ o, c.Registers config svcName op c' o := by
  cases h with
  | @created T topic reply id =>
    exact registers_createReader fun cfg => hcreate T topic cfg reply id
  | @cloned i id r _ hr hros =>
    have hjoin : c.Joins config svcName (.cloneReader i id) r.ringmaster id := .cloned hr
    refine ⟨some (c.asb.cloneReader r id).1.ticket, ?_, fun t ht => .inl ?_, fun m id' hjoin' => ?_⟩
    · rw [registry, registry, hros]
      exact Roster.registry_enlist rfl
    · cases ht
      exact hjoin
    · cases hjoin' with
      | cloned hr' =>
        rw [hr] at hr'
        cases hr'
        exact ⟨_, rfl, rfl, rfl⟩
  | dropped hr hros =>
    refine ⟨none, registers_none ?_ fun m id hjoin => by cases hjoin⟩
    rw [registry, registry, hros]
    exact Roster.registry_discharge hsound hr
  | shutDown => exact ⟨none, registers_none c.registry_pollError fun m id hjoin => by cases hjoin⟩
  | kept hop hros =>
    refine ⟨none, registers_none ?_ (not_joins_of_keepsRoster hop)⟩
    rw [registry, registry, hros]
    exact .refl _

/-! ## Creations -/

theorem createOnNet_sender (hc : c.Brokered) {T : TypeId} {topic : String} {cfg : BusConfig}
    {reply : BrokerReply} {id : SenderId} {r : AsbReader} {asb : NetAsb Val}
    (h : c.createOnNet T topic cfg reply id = (.ok r, asb)) :
    r.mySenderId = id ∧
      r.ringmaster = ((c.asb.readers.lookup cfg.busTopic).map Entry.ringmaster).getD
        c.asb.nextMaster := by
  unfold createOnNet at h
  rcases hc with hk | hk
  · rw [hk] at h
    exact NetAsb.createBrokerReader_sender (congrArg Roster.nextMaster
      (NetAsb.amqpSubscribe_frame c.exchange c.asb cfg reply c.readers).2) h
  · rw [hk] at h
    exact NetAsb.createBrokerReader_sender (congrArg Roster.nextMaster
      (NetAsb.mqttSubscribe_frame c.asb cfg reply c.readers).2) h

theorem enrolls_of_brokered (hc : c.Brokered) (hg : c.roster.Grounded) (hsound : c.registry.Sound)
    (T : TypeId) (topic : String) (cfg : BusConfig) (reply : BrokerReply) (id : SenderId) :
    c.Enrolls T cfg id (c.createOnNet T topic cfg reply id).1
      (c.createOnNet T topic cfg reply id).2 := by
  have hticket : ∀ {r : AsbReader} {asb : NetAsb Val},
      c.roster.Move none (asb.roster (c.readers ++ [r])) →
      Registry.Step c.registry (asb.roster (c.readers ++ [r])).registry (some r.ticket) := by
    intro r asb hmove
    obtain ⟨o, hstep⟩ := hmove.registry_step hsound
    have ho := hstep.eq_some_of_tickets (t := r.ticket) List.map_append
    rw [ho] at hstep
    exact hstep
  rcases createOnNet_cases hc T topic cfg reply id with
    ⟨e, r, asb, he, hty, hnet, hmove⟩ | ⟨e, he, hty, hnet⟩ | ⟨hnone, err, asb, hnet, hros⟩ |
      ⟨hnone, r, asb, hnet, hmove⟩
  · obtain ⟨hid, hm⟩ := createOnNet_sender hc hnet
    rw [he] at hm
    rw [hnet]
    exact .joined he hty hm hid (hticket hmove)
  · rw [hnet]
    refine .failed (fun r => by simp) (fun e' he' => ?_) rfl
    rw [he] at he'
    cases he'
    exact hty
  · rw [hnet]
    refine .failed (fun r => by simp) (fun e he => ?_) (congrArg Roster.registry hros)
    rw [hnone] at he
    cases he
  · obtain ⟨-, hm⟩ := createOnNet_sender hc hnet
    rw [hnone] at hm
    rw [hnet]
    refine .opened hnone (fun o ho => ?_) (hticket hmove)
    rw [hm]
    exact Nat.ne_of_lt (hg.master_lt o ho)

theorem grounded_pollError (h : c.roster.Grounded) : c.pollError.roster.Grounded := by
  refine h.next (Nat.le_refl _) (Nat.le_refl _) (fun m _ => NetAsb.ty_shutdown c.asb m)
    (fun r hr => .inl hr) "" fun t e he => ?_
  cases he

/-! ## Runs -/

/-- A connection whose removals hit their own senders. -/
inductive Wired (c : AsbConnection Val) : Prop
  | idle (h : c.Idle)
  | brokered (hc : c.Brokered) (hg : c.roster.Grounded) (hsound : c.registry.Sound)

theorem wired_connected (kind : NetworkKind) (exchange : Option String) :
    (connected kind exchange : AsbConnection Val).Wired := by
  have hsound : (connected kind exchange : AsbConnection Val).registry.Sound := by
    constructor <;> simp [registry, roster, NetAsb.roster, Roster.registry, connected, NetAsb.new]
  cases kind with
  | amqp => exact .brokered (.inl rfl) (sound_connected (.inl rfl) exchange).grounded hsound
  | mqtt => exact .brokered (.inr rfl) (sound_connected (.inr rfl) exchange).grounded hsound
  | loopback => exact .idle (idle_connected (.inl rfl) exchange)
  | null => exact .idle (idle_connected (.inr rfl) exchange)

theorem Wired.dropsOwn (h : c.Wired) : c.DropsOwn := by
  cases h with
  | idle h => exact fun _ hr => absurd (h.noReader ▸ hr) List.not_mem_nil
  | brokered _ _ hsound => exact (dropsOwn_iff c).2 hsound.exact

/-- A sender registered without a reader there is fresh. -/
theorem freshSender_of_noReader (h : c.readers = []) : c.FreshSender config svcName op :=
  fun _ _ _ _ hr => absurd (h ▸ hr) List.not_mem_nil

theorem Wired.step (h : c.Wired) (hfresh : c.FreshSender config svcName op)
    (hs : c.step qx config svcName op = some c') : c'.Wired := by
  cases h with
  | idle h => exact .idle (h.step hs)
  | brokered hc hg hsound =>
    obtain ⟨o, ho⟩ := (step_rosterStep hs).exists_registers hsound
      (enrolls_of_brokered hc hg hsound)
    refine .brokered ?_ ?_ (hsound.step ho.step (ho.fresh_iff.1 hfresh))
    · rw [Brokered, (step_frame hs).1]
      exact hc
    · by_cases hpoll : op.isPollError = true
      · cases op <;> simp only [Op.isPollError, reduceCtorEq] at hpoll
        cases step_rosterStep hs with
        | shutDown => exact grounded_pollError hg
        | kept _ hros => exact hros ▸ hg
      · exact hg.move (step_rosterMove hc (by simpa using hpoll) hs)

theorem Wired.freshSender (h : c.Wired) (hs : c.step qx config svcName op = some c')
    (hdrops : c'.DropsOwn) : c.FreshSender config svcName op := by
  have hexact := (dropsOwn_iff c').1 hdrops
  have hregistered : ∀ {o}, c.registry.Sound → c.Registers config svcName op c' o →
      c.FreshSender config svcName op := by
    intro o hsound ho
    refine ho.fresh_iff.2 fun t ht => ?_
    subst ht
    exact hsound.fresh_of_exact ho.step hexact
  cases h with
  | idle h => exact freshSender_of_noReader h.noReader
  | brokered hc hg hsound =>
    obtain ⟨o, ho⟩ := (step_rosterStep hs).exists_registers hsound
      (enrolls_of_brokered hc hg hsound)
    exact hregistered hsound ho

/-- **The drop of a reader hits its own sender exactly while the ids of a ringmaster differ.** -/
theorem dropsOwn_iff_fresh (kind : NetworkKind) (exchange : Option String) (ops : List (Op Val)) :
    Always (step qx config svcName) DropsOwn (connected kind exchange) ops ↔
      EachStep (step qx config svcName) (FreshSender config svcName) (connected kind exchange)
        ops :=
  always_iff_eachStep Wired (fun _ h => h.dropsOwn) (fun _ _ _ h hfresh hs => h.step hfresh hs)
    (fun _ _ _ h hs hdrops => h.freshSender hs hdrops) ops (wired_connected kind exchange)

end AsbConnection

end Rounac
