import Mathlib.Data.Finset.Card
import Rounac.Networks.Steps

/-!
# The roster of a connection

What the life of readers is about: the readers alive, the registry, and for each ringmaster its
type and its senders. `Roster` keeps that and forgets the rest of a connection (messages, filters,
statuses, tables, buffers). Its operations are those of readers: one joins a topic that is already
subscribed, one opens a topic, one is cloned, one is dropped.

* `Roster.Move` — the moves of a roster, labelled by the position of the reader they drop.
* `step_rosterStep` — what a step of a connection does to its roster, on any network.
* `step_rosterMove` — a step of a broker-backed connection that is no poll error moves its roster.
-/

namespace Rounac

open SwapRemove

/-- The handle of a broker-backed network for a bus topic. -/
def AsbReaderNet.On (net : AsbReaderNet) (topic : String) : Prop :=
  net = .amqp topic ∨ net = .mqtt topic

theorem AsbReaderNet.On.topic_eq {net : AsbReaderNet} {topic : String} (h : net.On topic) :
    net.topic = some topic := by
  rcases h with rfl | rfl <;> rfl

theorem AsbReaderNet.On.cancel_eq {net : AsbReaderNet} {topic : String} (h : net.On topic)
    (last : Entry) : ∃ q, net.cancel last = some q := by
  rcases h with rfl | rfl <;> exact ⟨_, rfl⟩

/-- The readers alive, the registry, the type and senders of each ringmaster, the first addresses
not in use, and the cancellations sent. -/
@[ext] structure Roster where
  live : List AsbReader
  entries : StrMap Entry
  ty : MasterId → TypeId
  senders : MasterId → List ReaderSender
  nextMaster : MasterId
  nextRing : RingId
  nextNet : ℕ
  cancels : List BrokerRequest

namespace Roster

/-- A reader comes alive, with its sender at its ringmaster. -/
def enlist (s : Roster) (r : AsbReader) : Roster :=
  { s with
    live := s.live ++ [r]
    senders := Function.update s.senders r.ringmaster
      (s.senders r.ringmaster ++ [(r.mySenderId, r.buffer)])
    nextRing := s.nextRing + 1 }

/-- A reader with a network handle of its own joins the topic of the entry `e`. -/
def register (s : Roster) (topic : String) (e : Entry) (r : AsbReader) : Roster :=
  { s.enlist r with
    entries := s.entries.insert topic { e with count := e.count + 1 }
    nextNet := s.nextNet + 1 }

/-- A topic is opened with a ringmaster of its own, and no reader yet. -/
def subscribe (s : Roster) (topic tag : String) (T : TypeId) : Roster :=
  { s with
    entries := s.entries.insert topic ⟨s.nextMaster, 0, tag⟩
    ty := Function.update s.ty s.nextMaster T
    senders := Function.update s.senders s.nextMaster []
    nextMaster := s.nextMaster + 1 }

/-- The last reader on a network handle is gone. -/
def dropNet (s : Roster) (net : AsbReaderNet) : Roster :=
  match net.topic.bind fun topic => (s.entries.lookup topic).map (topic, ·) with
  | none => s
  | some (topic, e) =>
    if e.count = 1 then
      { s with
        entries := s.entries.erase topic
        senders := Function.update s.senders e.ringmaster []
        cancels := s.cancels ++ (net.cancel e).toList }
    else { s with entries := s.entries.insert topic { e with count := e.count - 1 } }

/-- A reader's sender is taken out of its ringmaster. -/
def silence (s : Roster) (r : AsbReader) : Roster :=
  { s with
    senders := Function.update s.senders r.ringmaster
      (removeFirst (fun b => b.1 == r.mySenderId) (s.senders r.ringmaster)).2 }

/-- The reader at position `i` is dropped. -/
def discharge (s : Roster) (i : ℕ) (r : AsbReader) : Roster :=
  let rest := s.live.eraseIdx i
  let s := { s.silence r with live := rest }
  if rest.any fun o => o.net == r.net then s else s.dropNet r.net.net

/-- The moves of a roster, labelled by the position of the reader they drop, if they do. -/
inductive Move (s : Roster) : Option ℕ → Roster → Prop
  | idle : Move s none s
  /-- A reader joins a subscribed topic. -/
  | join {topic e r} : s.entries.lookup topic = some e → r.ringmaster = e.ringmaster →
      r.ty = s.ty e.ringmaster → r.buffer = s.nextRing → r.net.id = s.nextNet →
      r.net.net.On topic → Move s none (s.register topic e r)
  /-- A reader opens a topic. -/
  | opened {topic tag r} : s.entries.lookup topic = none → r.ringmaster = s.nextMaster →
      r.buffer = s.nextRing → r.net.id = s.nextNet → r.net.net.On topic →
      Move s none ((s.subscribe topic tag r.ty).register topic ⟨s.nextMaster, 0, tag⟩ r)
  /-- A reader is cloned. -/
  | cloned {r r'} : r ∈ s.live → r'.ringmaster = r.ringmaster → r'.ty = r.ty → r'.net = r.net →
      r'.buffer = s.nextRing → Move s none (s.enlist r')
  /-- A reader is dropped. -/
  | dropped {i r} : s.live[i]? = some r → Move s (some i) (s.discharge i r)

end Roster

/-! ## The roster of the heap -/

namespace NetAsb

variable {Val : Type}

def roster (asb : NetAsb Val) (live : List AsbReader) : Roster where
  live
  entries := asb.readers
  ty := fun m => (asb.masters m).ty
  senders := fun m => (asb.masters m).senders
  nextMaster := asb.nextMaster
  nextRing := asb.nextRing
  nextNet := asb.nextNet
  cancels := asb.requests.filter BrokerRequest.isCancel

theorem roster_request (asb : NetAsb Val) {q : BrokerRequest} (hq : q.isCancel = false)
    (live : List AsbReader) : (asb.request q).roster live = asb.roster live := by
  simp [roster, request, hq]

theorem roster_modifyMaster (asb : NetAsb Val) (m : MasterId)
    {f : ReaderRingMaster → ReaderRingMaster} (hf : ∀ x, (f x).ty = x.ty)
    (live : List AsbReader) :
    (asb.modifyMaster m f).roster live =
      { asb.roster live with
        senders := Function.update (asb.roster live).senders m (f (asb.masters m)).senders } := by
  refine Roster.ext rfl rfl ?_ ?_ rfl rfl rfl rfl
  · funext k
    exact ty_modifyMaster asb m hf k
  · funext k
    by_cases hk : k = m
    · subst hk
      simp [roster]
    · simp [roster, modifyMaster_masters_of_ne asb hk, Function.update_of_ne hk]

theorem roster_handleMsg (qx : QuickXml Val) (asb : NetAsb Val) (topic : String) (now : Instant)
    (data : ByteArray) (live : List AsbReader) :
    (asb.handleMsg qx topic now data).roster live = asb.roster live := by
  unfold handleMsg
  split_ifs
  · rfl
  · cases hl : asb.readers.lookup topic with
    | none => rfl
    | some t =>
      refine Roster.ext rfl rfl ?_ ?_ rfl rfl rfl rfl
      · funext k
        by_cases hk : k = t.ringmaster
        · subst hk; simp [roster]
        · simp [roster, Function.update_of_ne hk]
      · funext k
        by_cases hk : k = t.ringmaster
        · subst hk; simp [roster]
        · simp [roster, Function.update_of_ne hk]

theorem roster_newMaster (asb : NetAsb Val) (topic tag : String) (T : TypeId) (w : WireFormat)
    (q : QosSettings) (live : List AsbReader) :
    ((asb.newMaster (.new T w q)).2.insertReader topic asb.nextMaster tag).roster live =
      (asb.roster live).subscribe topic tag T := by
  refine Roster.ext rfl rfl ?_ ?_ rfl rfl rfl rfl
  · funext k
    by_cases hk : k = asb.nextMaster
    · subst hk; simp [roster, newMaster, insertReader, Roster.subscribe]
    · simp [roster, newMaster, insertReader, Roster.subscribe, Function.update_of_ne hk]
  · funext k
    by_cases hk : k = asb.nextMaster
    · subst hk; simp [roster, newMaster, insertReader, Roster.subscribe]
    · simp [roster, newMaster, insertReader, Roster.subscribe, Function.update_of_ne hk]

/-- The end of a creation on a topic with an entry registers the reader it makes. -/
theorem attachReader_of_entry {asb : NetAsb Val} {config : BusConfig} {e : Entry}
    (he : asb.readers.lookup config.busTopic = some e) (net : String → AsbReaderNet) (T : TypeId)
    (counter : String) (id : SenderId) (live : List AsbReader) :
    ∃ r asb', asb.attachReader e.ringmaster net T counter config id = (.ok r, asb') ∧
      r.ringmaster = e.ringmaster ∧ r.ty = T ∧ r.mySenderId = id ∧ r.buffer = asb.nextRing ∧
      r.net = ⟨asb.nextNet, net config.busTopic⟩ ∧
      asb'.roster (live ++ [r]) = (asb.roster live).register config.busTopic e r := by
  unfold attachReader
  rw [show asb.addReader config.busTopic = _ by rw [addReader, he]]
  refine ⟨_, _, rfl, rfl, rfl, rfl, rfl, rfl, ?_⟩
  refine Roster.ext rfl rfl ?_ ?_ rfl rfl rfl rfl
  · funext k
    exact ty_modifyMaster _ e.ringmaster (f := (·.addSender id asb.nextRing)) (fun _ => rfl) k
  · funext k
    exact congrFun (congrArg Roster.senders (roster_modifyMaster _ e.ringmaster
      (f := (·.addSender id asb.nextRing)) (fun _ => rfl) live)) k

/-- How the creation of a reader on a broker-backed network ends. -/
theorem createBrokerReader_cases {asb : NetAsb Val}
    {subscribe : NetAsb Val → BusConfig → BrokerReply → Except CalError String × NetAsb Val}
    {config : BusConfig} {reply : BrokerReply} {net : String → AsbReaderNet} (T : TypeId)
    (counter : String) (id : SenderId) (live : List AsbReader)
    (hsub : (subscribe asb config reply).2.readers = asb.readers ∧
      (subscribe asb config reply).2.roster live = asb.roster live)
    (hnet : ∀ topic, (net topic).On topic) :
    (∃ e r asb', asb.readers.lookup config.busTopic = some e ∧
      (asb.masters e.ringmaster).downcast T ∧
      createBrokerReader subscribe net asb T counter config reply id = (.ok r, asb') ∧
      (asb.roster live).Move none (asb'.roster (live ++ [r]))) ∨
    (∃ e, asb.readers.lookup config.busTopic = some e ∧
      ¬ (asb.masters e.ringmaster).downcast T ∧
      createBrokerReader subscribe net asb T counter config reply id = (.panicked, asb)) ∨
    (asb.readers.lookup config.busTopic = none ∧
      ∃ err asb', createBrokerReader subscribe net asb T counter config reply id =
        (.err err, asb') ∧
        asb'.roster live = asb.roster live) ∨
    (asb.readers.lookup config.busTopic = none ∧
      ∃ r asb', createBrokerReader subscribe net asb T counter config reply id = (.ok r, asb') ∧
      (asb.roster live).Move none (asb'.roster (live ++ [r]))) := by
  unfold createBrokerReader
  rw [getCloneFor]
  cases hl : asb.readers.lookup config.busTopic with
  | some e =>
    simp only [Option.map_some]
    by_cases hT : (asb.masters e.ringmaster).downcast T
    · rw [if_pos hT]
      obtain ⟨r, asb', heq, hm, hty, -, hbuf, hrnet, hros⟩ :=
        attachReader_of_entry hl net T counter id live
      refine .inl ⟨e, r, asb', rfl, hT, heq, hros ▸ .join hl hm ?_ hbuf ?_ ?_⟩
      · rw [hty]
        exact (beq_iff_eq.1 hT).symm
      · rw [hrnet]
        rfl
      · rw [hrnet]
        exact hnet _
    · rw [if_neg hT]
      exact .inr (.inl ⟨e, rfl, hT, rfl⟩)
  | none =>
    simp only [Option.map_none]
    rcases hs : subscribe asb config reply with ⟨res, asb₁⟩
    rw [hs] at hsub
    cases res with
    | error err => exact .inr (.inr (.inl ⟨trivial, err, asb₁, rfl, hsub.2⟩))
    | ok tag =>
      refine .inr (.inr (.inr ⟨trivial, ?_⟩))
      have hlookup : ((asb₁.newMaster (.new T config.wireFormat config.qos)).2.insertReader
          config.busTopic asb₁.nextMaster tag).readers.lookup config.busTopic =
          some ⟨asb₁.nextMaster, 0, tag⟩ := AList.lookup_insert _
      obtain ⟨r, asb', heq, hm, hty, -, hbuf, hrnet, hros⟩ :=
        attachReader_of_entry hlookup net T counter id live
      refine ⟨r, asb', heq, ?_⟩
      rw [hros, roster_newMaster, hsub.2, ← hty]
      -- The subscribe leaves the roster, so each number drawn next is the old one.
      have hmaster : asb₁.nextMaster = asb.nextMaster := congrArg Roster.nextMaster hsub.2
      have hring : asb₁.nextRing = asb.nextRing := congrArg Roster.nextRing hsub.2
      have hnetId : asb₁.nextNet = asb.nextNet := congrArg Roster.nextNet hsub.2
      rw [hmaster]
      refine .opened hl (hm.trans hmaster) (hbuf.trans hring) ?_ ?_
      · rw [hrnet]
        exact hnetId
      · rw [hrnet]
        exact hnet _

theorem amqpSubscribe_frame (exchange : Option String) (asb : NetAsb Val) (config : BusConfig)
    (reply : BrokerReply) (live : List AsbReader) :
    (amqpSubscribe exchange asb config reply).2.readers = asb.readers ∧
      (amqpSubscribe exchange asb config reply).2.roster live = asb.roster live := by
  unfold amqpSubscribe
  cases reply.queueDeclare with
  | error e => exact ⟨rfl, roster_request asb rfl live⟩
  | ok queue =>
    cases exchange with
    | none => exact ⟨rfl, (roster_request _ rfl live).trans (roster_request asb rfl live)⟩
    | some ex =>
      cases reply.queueBind with
      | error e => exact ⟨rfl, (roster_request _ rfl live).trans (roster_request asb rfl live)⟩
      | ok =>
        exact ⟨rfl, (roster_request _ rfl live).trans
          ((roster_request _ rfl live).trans (roster_request asb rfl live))⟩

theorem mqttSubscribe_frame (asb : NetAsb Val) (config : BusConfig) (reply : BrokerReply)
    (live : List AsbReader) :
    (mqttSubscribe asb config reply).2.readers = asb.readers ∧
      (mqttSubscribe asb config reply).2.roster live = asb.roster live := by
  rcases asb.mqttSubscribe_cases config reply with h | h <;> rw [h]
  · exact ⟨rfl, roster_request asb rfl live⟩
  · exact ⟨rfl, rfl⟩

theorem roster_cloneReader (asb : NetAsb Val) (r : AsbReader) (id : SenderId)
    (live : List AsbReader) :
    (asb.cloneReader r id).2.roster (live ++ [(asb.cloneReader r id).1]) =
      (asb.roster live).enlist (asb.cloneReader r id).1 := by
  refine Roster.ext rfl rfl ?_ ?_ rfl rfl rfl rfl
  · funext k
    exact ty_modifyMaster _ r.ringmaster (f := (·.addSender id asb.nextRing)) (fun _ => rfl) k
  · funext k
    exact congrFun (congrArg Roster.senders (roster_modifyMaster _ r.ringmaster
      (f := (·.addSender id asb.nextRing)) (fun _ => rfl) live)) k

theorem roster_retire (asb : NetAsb Val) (topic : String) (m : MasterId) (live : List AsbReader) :
    ({ asb.modifyMaster m .shutdown with readers := asb.readers.erase topic } : NetAsb Val).roster
      live = { asb.roster live with
        entries := asb.readers.erase topic
        senders := Function.update (asb.roster live).senders m [] } :=
  congrArg (fun s : Roster => { s with entries := asb.readers.erase topic })
    (roster_modifyMaster asb m (f := ReaderRingMaster.shutdown) (fun _ => rfl) live)

theorem roster_cancel (asb : NetAsb Val) (net : AsbReaderNet) (last : Entry)
    (live : List AsbReader) :
    (((net.cancel last).map asb.request).getD asb).roster live =
      { asb.roster live with
        cancels := (asb.roster live).cancels ++ (net.cancel last).toList } := by
  cases net <;> simp [AsbReaderNet.cancel, roster, request, BrokerRequest.isCancel]

theorem roster_delReader (asb : NetAsb Val) (net : AsbReaderNet) {topic : String}
    (hnet : net.topic = some topic) (live : List AsbReader) :
    (asb.delReader net.cancel topic).2.roster live = (asb.roster live).dropNet net := by
  unfold delReader delReaderLocked Roster.dropNet
  rw [hnet]
  rw [Option.bind_some, show (asb.roster live).entries = asb.readers from rfl]
  cases asb.readers.lookup topic with
  | none => rfl
  | some e =>
    by_cases h1 : e.count = 1
    · simp only [h1, if_true, Option.map_some]
      rw [roster_cancel, roster_retire]
    · simp only [h1, if_false, Option.map_some]
      rfl

theorem roster_dropNet (asb : NetAsb Val) (net : AsbReaderNet) (live : List AsbReader) :
    (asb.dropNet net).roster live = (asb.roster live).dropNet net := by
  cases net with
  | amqp topic => exact roster_delReader asb (.amqp topic) rfl live
  | mqtt topic => exact roster_delReader asb (.mqtt topic) rfl live
  | loopback topic => exact roster_delReader asb (.loopback topic) rfl live
  | null => rfl

theorem roster_dropReader (asb : NetAsb Val) (live : List AsbReader) (i : ℕ) (r : AsbReader) :
    (asb.dropReader r (live.eraseIdx i)).roster (live.eraseIdx i) =
      (asb.roster live).discharge i r := by
  have hsilence : (asb.modifyMaster r.ringmaster fun m => (m.removeSender r.mySenderId).2).roster
      (live.eraseIdx i) = { (asb.roster live).silence r with live := live.eraseIdx i } :=
    roster_modifyMaster asb r.ringmaster
      (f := fun m => (m.removeSender r.mySenderId).2) (fun _ => rfl) (live.eraseIdx i)
  unfold dropReader Roster.discharge
  dsimp only [roster]
  split_ifs
  · exact hsilence
  · exact (roster_dropNet _ _ _).trans (congrArg (Roster.dropNet · r.net.net) hsilence)

end NetAsb

/-! ## The roster of a connection -/

def Op.drops {Val : Type} : Op Val → Option ℕ
  | .dropReader i => some i
  | _ => none

def Op.isPollError {Val : Type} : Op Val → Bool
  | .pollError => true
  | _ => false

/-- Whether the operation has nothing to do with readers' lives. -/
def Op.keepsRoster {Val : Type} : Op Val → Bool
  | .createReader .. | .cloneReader .. | .dropReader .. | .pollError => false
  | _ => true

theorem Op.drops_of_keepsRoster {Val : Type} {op : Op Val} (h : op.keepsRoster = true) :
    op.drops = none := by
  cases op with
  | createReader | cloneReader | dropReader | pollError => cases h
  | _ => rfl

namespace AsbConnection

variable {Val : Type} {qx : QuickXml Val} {config : AsbConfig} {svcName : String}

def roster (c : AsbConnection Val) : Roster := c.asb.roster c.readers

def Brokered (c : AsbConnection Val) : Prop := c.kind = .amqp ∨ c.kind = .mqtt

/-- How the network part of a creation ends on a broker-backed network. -/
theorem createOnNet_cases {c : AsbConnection Val} (hc : c.Brokered) (T : TypeId) (topic : String)
    (cfg : BusConfig) (reply : BrokerReply) (id : SenderId) :
    (∃ e r asb', c.asb.readers.lookup cfg.busTopic = some e ∧
      (c.asb.masters e.ringmaster).downcast T ∧
      c.createOnNet T topic cfg reply id = (.ok r, asb') ∧
      c.roster.Move none (asb'.roster (c.readers ++ [r]))) ∨
    (∃ e, c.asb.readers.lookup cfg.busTopic = some e ∧
      ¬ (c.asb.masters e.ringmaster).downcast T ∧
      c.createOnNet T topic cfg reply id = (.panicked, c.asb)) ∨
    (c.asb.readers.lookup cfg.busTopic = none ∧
      ∃ err asb', c.createOnNet T topic cfg reply id = (.err err, asb') ∧
        asb'.roster c.readers = c.roster) ∨
    (c.asb.readers.lookup cfg.busTopic = none ∧
      ∃ r asb', c.createOnNet T topic cfg reply id = (.ok r, asb') ∧
      c.roster.Move none (asb'.roster (c.readers ++ [r]))) := by
  unfold createOnNet
  rcases hc with hk | hk
  · rw [hk]
    exact NetAsb.createBrokerReader_cases T topic id c.readers
      (NetAsb.amqpSubscribe_frame c.exchange c.asb cfg reply c.readers) fun _ => .inl rfl
  · rw [hk]
    exact NetAsb.createBrokerReader_cases T topic id c.readers
      (NetAsb.mqttSubscribe_frame c.asb cfg reply c.readers) fun _ => .inr rfl

theorem roster_write (c : AsbConnection Val) (w : AsbWriter) (msg : Val) (now : Instant)
    (reply : Except CalError Unit) : (c.write qx w msg now reply).2.roster = c.roster := by
  unfold write
  cases serializeMsg qx w.ty w.format msg with
  | error e => rfl
  | ok data =>
    cases c.kind with
    | amqp => exact NetAsb.roster_request c.asb rfl c.readers
    | mqtt =>
      dsimp only
      split_ifs
      · rfl
      · exact NetAsb.roster_request c.asb rfl c.readers
    | loopback =>
      dsimp only [LoopbackAsb.publish]
      split_ifs
      · rfl
      · exact NetAsb.roster_handleMsg qx c.asb w.busTopic now data c.readers
    | null => rfl

/-- What a step does to the roster, on any network. -/
inductive RosterStep (config : AsbConfig) (svcName : String) (c : AsbConnection Val) :
    Op Val → AsbConnection Val → Prop
  | created {T : TypeId} {topic : String} {reply : BrokerReply} {id : SenderId} :
      RosterStep config svcName c (.createReader T topic reply id)
        (c.createReader config svcName T topic reply id).2
  | cloned {i : ℕ} {id : SenderId} {r : AsbReader} {c' : AsbConnection Val}
      (hr : c.readers[i]? = some r)
      (hros : c'.roster = c.roster.enlist (c.asb.cloneReader r id).1) :
      RosterStep config svcName c (.cloneReader i id) c'
  | dropped {i : ℕ} {r : AsbReader} {c' : AsbConnection Val} (hr : c.readers[i]? = some r)
      (hros : c'.roster = c.roster.discharge i r) :
      RosterStep config svcName c (.dropReader i) c'
  | shutDown (hkind : c.kind = .mqtt) : RosterStep config svcName c .pollError c.pollError
  | kept {op : Op Val} {c' : AsbConnection Val} (hop : op.keepsRoster = true)
      (hros : c'.roster = c.roster) : RosterStep config svcName c op c'

theorem step_rosterStep {c c' : AsbConnection Val} {op : Op Val}
    (hs : c.step qx config svcName op = some c') :
    c.RosterStep config svcName op c' := by
  cases op with
  | createReader T topic reply id =>
    rw [step_createReader] at hs
    cases hs
    exact .created
  | cloneReader i id =>
    obtain ⟨r, hr, rfl⟩ := step_cloneReader hs
    exact .cloned hr (NetAsb.roster_cloneReader c.asb r id c.readers)
  | dropReader i =>
    obtain ⟨r, hr, rfl⟩ := step_dropReader hs
    exact .dropped hr (NetAsb.roster_dropReader c.asb c.readers i r)
  | createWriter T topic =>
    rw [step_createWriter] at hs
    cases hs
    refine .kept rfl ?_
    rcases createWriter_cases config svcName c T topic with
      ⟨e, -, heq⟩ | ⟨topics, -, ⟨e, -, heq⟩ | ⟨w, -, -, heq⟩⟩ <;> rw [heq] <;> rfl
  | cloneWriter i =>
    obtain ⟨w, -, rfl⟩ := step_cloneWriter hs
    exact .kept rfl rfl
  | dropWriter i =>
    obtain ⟨w, -, rfl⟩ := step_dropWriter hs
    exact .kept rfl rfl
  | write i msg now reply =>
    obtain ⟨w, -, rfl⟩ := step_write hs
    exact .kept rfl (roster_write c w msg now reply)
  | read i clock | readTimeout i d start clock | tryRead i clock =>
    simp only [step, exec, poll, Option.map_map] at hs
    obtain ⟨r, -, rfl⟩ := Option.map_eq_some_iff.1 hs
    exact .kept rfl rfl
  | deliver busTopic now data =>
    simp only [step, exec, deliver, Option.map_map] at hs
    obtain ⟨d, hd, rfl⟩ := Option.map_eq_some_iff.1 hs
    refine .kept rfl ?_
    split at hd
    · cases hd; exact NetAsb.roster_handleMsg qx c.asb busTopic now data c.readers
    · split_ifs at hd; cases hd; exact NetAsb.roster_handleMsg qx c.asb busTopic now data c.readers
    · cases hd
  | connClose | chanClose =>
    simp only [step, exec] at hs
    split_ifs at hs
    · cases hs
      exact .kept rfl rfl
    · cases hs
  | pollError =>
    simp only [step, exec] at hs
    split_ifs at hs with hpoll
    · cases hs
      exact .shutDown hpoll.1
    · cases hs

/-- **A step of a broker-backed connection moves its roster**, unless the event loop fails. -/
theorem step_rosterMove {c c' : AsbConnection Val} {op : Op Val} (hc : c.Brokered)
    (hop : op.isPollError = false) (h : c.step qx config svcName op = some c') :
    c.roster.Move op.drops c'.roster := by
  cases step_rosterStep h with
  | @created T topic reply id =>
    rcases createReader_cases config svcName c T topic reply id with
      ⟨e, -, heq⟩ | ⟨topics, -,
        ⟨e, -, heq⟩ | ⟨cfg, -, ⟨r, asb, hnet, heq⟩ | ⟨res, asb, hnet, hres, heq⟩⟩⟩
    · rw [heq]; exact .idle
    · rw [heq]; exact .idle
    · rw [heq]
      -- A reader came back, so it was attached to the entry found or to the one opened.
      rcases createOnNet_cases hc T topic cfg reply id with
        ⟨_, r', asb', -, -, hnet', hmove⟩ | ⟨_, -, -, hnet'⟩ | ⟨-, _, _, hnet', -⟩ |
          ⟨-, r', asb', hnet', hmove⟩
      · obtain ⟨⟨⟩, rfl⟩ := Prod.mk.inj (hnet.symm.trans hnet')
        exact hmove
      · exact absurd (hnet.symm.trans hnet') (by simp)
      · exact absurd (hnet.symm.trans hnet') (by simp)
      · obtain ⟨⟨⟩, rfl⟩ := Prod.mk.inj (hnet.symm.trans hnet')
        exact hmove
    · rw [heq]
      -- None came back, so none was attached either.
      rcases createOnNet_cases hc T topic cfg reply id with
        ⟨_, r', asb', -, -, hnet', -⟩ | ⟨_, -, -, hnet'⟩ | ⟨-, _, _, hnet', hros⟩ |
          ⟨-, r', asb', hnet', -⟩
      · exact absurd (Prod.mk.inj (hnet.symm.trans hnet')).1 (hres r')
      · obtain ⟨-, rfl⟩ := Prod.mk.inj (hnet.symm.trans hnet')
        exact .idle
      · obtain ⟨-, rfl⟩ := Prod.mk.inj (hnet.symm.trans hnet')
        show c.roster.Move none (asb.roster c.readers)
        rw [hros]
        exact .idle
      · exact absurd (Prod.mk.inj (hnet.symm.trans hnet')).1 (hres r')
  | cloned hr hros =>
    rw [hros]
    exact .cloned (List.mem_of_getElem? hr) rfl rfl rfl rfl
  | dropped hr hros =>
    rw [hros]
    exact .dropped hr
  | shutDown => cases hop
  | kept hkeeps hros =>
    rw [hros, Op.drops_of_keepsRoster hkeeps]
    exact .idle

end AsbConnection

end Rounac
