import Rounac.FailedReads
import Rounac.FanOut

/-!
# After the shutdown of a ringmaster

`ReaderRingMaster::shutdown` clears the senders and blows a fuse that nothing looks at, so
`add_sender`, and with it `AsbReader::clone`, goes on registering senders. A ringmaster stays shut
down in exactly the runs in which neither is done to it again (`stays_shut_iff`).
-/

namespace Rounac

open StepSystem SwapRemove OverwriteRing

variable {Val : Type} {qx : QuickXml Val}

/-! ## An ASB and its readers -/

/-- What is done to ringmasters and readers: a fan-out operation, a message handed to a ringmaster
directly, a reader cloned or dropped. -/
inductive MasterOp
  | fan (op : FanOp)
  | distributeMsg (m : MasterId) (now : Instant) (data : ByteArray)
  | cloneReader (i : ℕ) (id : SenderId)
  | dropReader (i : ℕ)

/-- An ASB with the live readers on it. -/
structure AsbReaders (Val : Type) where
  asb : NetAsb Val
  readers : List AsbReader

namespace NetAsb

variable (qx) in
/-- `distribute_msg` on one ringmaster, with its sends. -/
def distributeTo (asb : NetAsb Val) (m : MasterId) (now : Instant) (data : ByteArray) :
    NetAsb Val :=
  let (master, sends) := (asb.masters m).distributeMsg qx now data
  { asb with masters := Function.update asb.masters m master, rings := sendAll asb.rings sends }

/-- A clone makes a ring of the same capacity and registers a sender for it. -/
theorem cloneReader_snd (asb : NetAsb Val) (r : AsbReader) (id : SenderId) :
    (asb.cloneReader r id).2 =
      (asb.ringBounded (asb.rings r.buffer).capacity).2.modifyMaster r.ringmaster
        (·.addSender id asb.nextRing) := rfl

/-! ### No operation but a registration adds a sender -/

section

variable {asb : NetAsb Val} {m : MasterId}

theorem senders_modifyMaster (h : (asb.masters m).senders = []) {k : MasterId}
    {f : ReaderRingMaster → ReaderRingMaster} (hf : (f (asb.masters m)).senders = []) :
    ((asb.modifyMaster k f).masters m).senders = [] := by
  by_cases hk : m = k
  · subst hk
    rw [modifyMaster_masters_self]
    exact hf
  · rw [modifyMaster_masters_of_ne asb hk]
    exact h

theorem senders_distributeTo (k : MasterId) (now : Instant) (data : ByteArray) :
    ((asb.distributeTo qx k now data).masters m).senders = (asb.masters m).senders := by
  show (Function.update asb.masters k ((asb.masters k).distributeMsg qx now data).1 m).senders = _
  by_cases hk : m = k
  · subst hk
    rw [Function.update_self, ReaderRingMaster.senders_distributeMsg]
  · rw [Function.update_of_ne hk]

theorem senders_dropNet (h : (asb.masters m).senders = []) (net : AsbReaderNet) :
    ((asb.dropNet net).masters m).senders = [] := by
  have hdel : ∀ cancel topic, ((asb.delReader cancel topic).2.masters m).senders = [] := by
    intro cancel topic
    unfold delReader delReaderLocked
    cases asb.readers.lookup topic with
    | none => exact h
    | some t =>
      dsimp only
      split_ifs
      · have hshut := senders_modifyMaster (k := t.ringmaster) h
          (ReaderRingMaster.senders_shutdown (asb.masters m))
        dsimp only
        cases cancel t <;> exact hshut
      · exact h
  cases net with
  | amqp topic | mqtt topic | loopback topic => exact hdel _ topic
  | null => exact h

theorem senders_dropReader (h : (asb.masters m).senders = []) (r : AsbReader)
    (others : List AsbReader) : ((asb.dropReader r others).masters m).senders = [] := by
  have hremoved := senders_modifyMaster (k := r.ringmaster) h
    (f := fun k => (k.removeSender r.mySenderId).2) (by simp [ReaderRingMaster.removeSender, h,
      removeFirst])
  unfold dropReader
  dsimp only
  split_ifs
  · exact hremoved
  · exact senders_dropNet hremoved _

end

end NetAsb

namespace AsbReaders

variable (qx) in
/-- One operation; `none` when there is no such reader. -/
def step (s : AsbReaders Val) : MasterOp → Option (AsbReaders Val)
  | .fan op => some { s with asb := s.asb.fan qx op }
  | .distributeMsg m now data => some { s with asb := s.asb.distributeTo qx m now data }
  | .cloneReader i id =>
      s.readers[i]?.map fun r =>
        let (r', asb) := s.asb.cloneReader r id
        { asb, readers := s.readers ++ [r'] }
  | .dropReader i =>
      s.readers[i]?.map fun r =>
        { asb := s.asb.dropReader r (s.readers.eraseIdx i), readers := s.readers.eraseIdx i }

/-- The two ways in which a ringmaster is shut down: by itself, or with the ASB it is registered
with. -/
inductive ShutDown (m : MasterId) (s : AsbReaders Val) : AsbReaders Val → Prop
  | master : ShutDown m s { s with asb := s.asb.modifyMaster m .shutdown }
  | asb {topic : String} {t : Entry} (ht : s.asb.readers.lookup topic = some t)
      (hm : t.ringmaster = m) : ShutDown m s { s with asb := s.asb.shutdown }

/-- The calls on a polling reader return an error once its ring is empty; `read_timeout` does so
under a timeout that is not zero and that ends on the clock. -/
def ReadsErr (latest : Instant) (s : AsbReaders Val) (r : AsbReader) : Prop :=
  r.callbacksActive = false → r.unread s.asb = [] →
    (∀ clock, (r.read (r.script s.asb clock [])).1 = .err AsbReader.closedErr) ∧
    (∀ clock, (r.tryRead (r.script s.asb clock [.nothing])).1 = .err AsbReader.closedErr) ∧
    ∀ timeout start clock, timeout ≠ 0 → start + timeout ≤ latest →
      (r.readTimeout timeout start (r.script s.asb clock [.nothing])).1 = .err AsbReader.closedErr

variable (qx) in
/-- The ringmaster has no sender, pushes no message, and its readers' reads fail. -/
structure StaysShut (latest : Instant) (m : MasterId) (s : AsbReaders Val) : Prop where
  senders : (s.asb.masters m).senders = []
  pushes : ∀ now data, ((s.asb.masters m).distributeMsg qx now data).2 = []
  reads : ∀ r ∈ s.readers, r.ringmaster = m → s.ReadsErr latest r

/-- The operation registers no sender with the ringmaster. -/
def AddsNoSender (m : MasterId) (s : AsbReaders Val) : MasterOp → Prop
  | .fan (.addSender k _ _) => k ≠ m
  | .cloneReader i _ => ∀ r, s.readers[i]? = some r → r.ringmaster ≠ m
  | _ => True

/-! ## Shut for good -/

/-- A ringmaster without senders is as good as shut down. -/
theorem staysShut_of_senders {m : MasterId} {s : AsbReaders Val}
    (h : (s.asb.masters m).senders = []) (latest : Instant) : s.StaysShut qx latest m where
  senders := h
  pushes now data := by
    rw [ReaderRingMaster.distributeMsg_eq, h]
    simp
  reads r _ hm hpoll hempty := by
    have hcut : r.disconnected s.asb = true := by
      refine (AsbReader.disconnected_iff r s.asb).2 fun x hx => ?_
      rw [hm, h] at hx
      cases hx
    exact ⟨AsbReader.read_of_cut hpoll hempty hcut, AsbReader.tryRead_of_cut hpoll hempty hcut,
      fun timeout start clock h0 _ =>
        (AsbReader.readTimeout_of_cut hpoll hempty hcut timeout start clock).2 (.inl h0)⟩

theorem ShutDown.senders {m : MasterId} {s s' : AsbReaders Val} (h : s.ShutDown m s') :
    (s'.asb.masters m).senders = [] := by
  cases h with
  | master =>
    show ((s.asb.modifyMaster m .shutdown).masters m).senders = []
    rw [NetAsb.modifyMaster_masters_self]
    rfl
  | asb ht hm =>
    subst hm
    exact NetAsb.senders_shutdown ht

theorem senders_step {m : MasterId} {s s' : AsbReaders Val} {op : MasterOp}
    (h : (s.asb.masters m).senders = []) (hop : s.AddsNoSender m op)
    (hs : s.step qx op = some s') : (s'.asb.masters m).senders = [] := by
  cases op with
  | fan op =>
    cases hs
    show ((s.asb.fan qx op).masters m).senders = []
    rw [NetAsb.fan_senders]
    cases op with
    | handleMsg | recv => exact h
    | addSender k id capacity =>
      rw [NetAsb.sendersAfter, if_neg (Ne.symm hop)]
      exact h
    | removeSender k id =>
      rw [NetAsb.sendersAfter, h]
      split_ifs <;> rfl
  | distributeMsg k now data =>
    cases hs
    exact (NetAsb.senders_distributeTo k now data).trans h
  | cloneReader i id =>
    obtain ⟨r, hi, rfl⟩ := Option.map_eq_some_iff.1 hs
    show ((s.asb.cloneReader r id).2.masters m).senders = []
    rw [NetAsb.cloneReader_snd, NetAsb.modifyMaster_masters_of_ne _ (Ne.symm (hop r hi))]
    exact h
  | dropReader i =>
    obtain ⟨r, hi, rfl⟩ := Option.map_eq_some_iff.1 hs
    exact NetAsb.senders_dropReader h r _

/-- A registration undoes the shutdown. -/
theorem addsNoSender_of_senders {m : MasterId} {s s' : AsbReaders Val} {op : MasterOp}
    (hs : s.step qx op = some s') (h : (s'.asb.masters m).senders = []) : s.AddsNoSender m op := by
  cases op with
  | fan op =>
    cases op with
    | addSender k id capacity =>
      rintro rfl
      cases hs
      have hnil : ((s.asb.fan qx (.addSender k id capacity)).masters k).senders = [] := h
      rw [NetAsb.fan_senders, NetAsb.sendersAfter, if_pos rfl] at hnil
      exact absurd hnil (by simp)
    | handleMsg | removeSender | recv => trivial
  | cloneReader i id =>
    rintro r hi rfl
    simp only [step, hi, Option.map_some] at hs
    cases hs
    have hnil : ((s.asb.cloneReader r id).2.masters r.ringmaster).senders = [] := h
    rw [NetAsb.cloneReader_snd, NetAsb.modifyMaster_masters_self] at hnil
    exact absurd hnil (by simp [ReaderRingMaster.addSender])
  | distributeMsg | dropReader => trivial

variable (qx) in
/-- **A ringmaster stays shut down in exactly the runs that register no sender with it again**,
whatever the ASB and its readers were before the shutdown. -/
theorem stays_shut_iff (latest : Instant) (m : MasterId) (s s' : AsbReaders Val)
    (h : s.ShutDown m s')
    (ops : List MasterOp) :
    Always (step qx) (StaysShut qx latest m) s' ops ↔ EachStep (step qx) (AddsNoSender m) s' ops :=
  always_iff_eachStep (fun u => (u.asb.masters m).senders = []) 
    (fun _ hu => staysShut_of_senders hu latest)
    (fun _ _ _ hu hop hs => senders_step hu hop hs)
    (fun _ _ _ _ hs hshut => addsNoSender_of_senders hs hshut.senders) ops h.senders

/-- A reader on the bus topic `t`, the first one of its ASB. -/
def oneReader : AsbReaders Unit :=
  match (NetAsb.new : NetAsb Unit).createMqttReader ⟨0⟩ "t" ⟨.xml, .default, "t"⟩ .accepting 1 with
  | (.ok r, asb) => { asb, readers := [r] }
  | (_, asb) => { asb, readers := [] }

/-- The sender is removed, a message comes and the reader is dropped after the shutdown. -/
theorem stays_shut_without_clone :
    Always (step .unit) (StaysShut .unit 10 0)
      { oneReader with asb := oneReader.asb.modifyMaster 0 .shutdown }
      [.fan (.removeSender 0 1), .distributeMsg 0 5 "<msg/>".toUTF8, .dropReader 0] :=
  (stays_shut_iff .unit 10 0 oneReader _ .master _).2
    fun _ _ => ⟨trivial, fun _ _ => ⟨trivial, fun _ _ => ⟨trivial, trivial⟩⟩⟩

/-- A clone made after the ASB was shut down has a sender: `try_read` reports nothing, `read` waits,
and a message handed to the ringmaster is pushed. -/
theorem clone_undoes_shutdown :
    ∃ s u : AsbReaders Unit, oneReader.ShutDown 0 s ∧
      run (step .unit) s [.cloneReader 0 2] = some u ∧ u.readers.map (·.ringmaster) = [0, 0] ∧
      (∃ r, u.readers[1]? = some r ∧
        (r.tryRead (r.script u.asb (fun _ => 0) [.nothing])).1 = .nothing ∧
        (r.read (r.script u.asb (fun _ => 0) [])).1 = .waiting) ∧
      ((u.asb.masters 0).distributeMsg .unit 5 "<msg/>".toUTF8).2 = [(1, (5, ()))] ∧
      ¬ u.StaysShut .unit 10 0 := by
  have ht : oneReader.asb.readers.lookup "t" = some ⟨0, 1, "t"⟩ := rfl
  refine ⟨_, _, .asb ht rfl, rfl, rfl, ⟨_, rfl, rfl, rfl⟩, by decide, fun h => ?_⟩
  exact absurd h.senders (by decide)

end AsbReaders

end Rounac
