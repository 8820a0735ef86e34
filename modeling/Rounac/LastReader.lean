import Rounac.Lib.StepSystem
import Rounac.Lib.WrapCounter
import Rounac.Networks.Asb

/-!
# The last reader of a topic

`del_reader` is to answer `Ok(true)` to the last reader of a topic and to no other. It compares a
16-bit count with `1`, while a topic may have any number of readers: the count of `n` readers is `n`
modulo `2 ^ 16`. So the answer is right in exactly those sequences of calls in which nobody leaves a
topic of `2 ^ 16 + 1` readers, of `2 * 2 ^ 16 + 1`, and so on (`last_reader_iff`).
-/

namespace Rounac

open StepSystem WrapCounter

variable {Val : Type}

/-! ## One call -/

namespace NetAsb

variable {asb : NetAsb Val} {topic : String} {e : Entry}

theorem delReader_of_locked_some {asb' : NetAsb Val} {last : Entry}
    (cancel : Entry → Option BrokerRequest)
    (h : asb.delReaderLocked topic = some (some last, asb')) :
    (asb.delReader cancel topic).1 = some true ∧
      (asb.delReader cancel topic).2.readers = asb'.readers ∧
      (asb.delReader cancel topic).2.masters = asb'.masters := by
  simp only [delReader, h, true_and]
  cases cancel last with
  | none => exact ⟨rfl, rfl⟩
  | some r => exact ⟨rfl, rfl⟩

theorem delReader_of_count_eq_one (cancel : Entry → Option BrokerRequest)
    (h : asb.readers.lookup topic = some e) (hone : e.count = 1) :
    (asb.delReader cancel topic).1 = some true ∧
      (asb.delReader cancel topic).2.readers.lookup topic = none ∧
      (asb.delReader cancel topic).2.masters e.ringmaster =
        (asb.masters e.ringmaster).shutdown := by
  have hlocked : asb.delReaderLocked topic = some (some e,
      { asb.modifyMaster e.ringmaster .shutdown with readers := asb.readers.erase topic }) := by
    simp only [delReaderLocked, h, if_pos hone]
  obtain ⟨htrue, hreaders, hmasters⟩ := delReader_of_locked_some cancel hlocked
  refine ⟨htrue, ?_, ?_⟩
  · rw [hreaders, AList.lookup_erase]
  · rw [hmasters]
    exact modifyMaster_masters_self asb e.ringmaster _

theorem delReader_of_count_ne_one (cancel : Entry → Option BrokerRequest)
    (h : asb.readers.lookup topic = some e) (hone : e.count ≠ 1) :
    asb.delReader cancel topic =
      (some false,
        { asb with readers := asb.readers.insert topic { e with count := e.count - 1 } }) := by
  simp only [delReader, delReaderLocked, h, if_neg hone]

end NetAsb

/-! ## Sequences of calls -/

/-- The ASBs that keep a registry. -/
inductive Transport
  | amqp
  | mqtt
  | loopback
deriving DecidableEq, Repr

namespace Transport

/-- The `add_reader` of an ASB. -/
def addReader : Transport → NetAsb Val → String → Option (NetAsb Val)
  | amqp => AmqpAsb.addReader
  | mqtt => MqttAsb.addReader
  | loopback => LoopbackAsb.addReader

/-- The `del_reader` of an ASB. -/
def delReader : Transport → NetAsb Val → String → Option Bool × NetAsb Val
  | amqp => AmqpAsb.delReader
  | mqtt => MqttAsb.delReader
  | loopback => LoopbackAsb.delReader

theorem addReader_eq (net : Transport) (asb : NetAsb Val) (topic : String) :
    net.addReader asb topic = asb.addReader topic := by
  cases net <;> rfl

variable (Val) in
/-- The three differ in what they ask the broker. -/
theorem exists_cancel (net : Transport) :
    ∃ cancel, ∀ (asb : NetAsb Val) topic, net.delReader asb topic = asb.delReader cancel topic := by
  cases net with
  | amqp => exact ⟨_, fun _ _ => rfl⟩
  | mqtt => exact ⟨_, fun _ _ => rfl⟩
  | loopback => exact ⟨_, fun _ _ => rfl⟩

end Transport

/-- The calls on the readers of a topic. -/
inductive ReaderCall
  | addReader
  | delReader
deriving DecidableEq, Repr

/-- An ASB, and the number of readers added to a topic and not yet deleted. -/
structure Outstanding (Val : Type) where
  asb : NetAsb Val
  readers : ℕ

namespace Outstanding

/-- A call on a topic. Only a reader that was added is deleted. -/
def step (net : Transport) (topic : String) (s : Outstanding Val) :
    ReaderCall → Option (Outstanding Val)
  | .addReader => (net.addReader s.asb topic).map fun asb => ⟨asb, s.readers + 1⟩
  | .delReader =>
    if 0 < s.readers then some ⟨(net.delReader s.asb topic).2, s.readers - 1⟩ else none

/-- The state after the insertion of a topic's entry, with count zero. -/
def start (asb : NetAsb Val) (topic : String) (m : MasterId) (tag : String) : Outstanding Val where
  asb := asb.insertReader topic m tag
  readers := 0

/-- `del_reader` answers the last reader with `Ok(true)`, after removing the entry and shutting its
ringmaster `m` down, and any other with `Ok(false)`, keeping them. -/
def Answered (net : Transport) (topic : String) (m : MasterId) (s : Outstanding Val) :
    ReaderCall → Prop
  | .addReader => True
  | .delReader =>
    if s.readers = 1 then
      (net.delReader s.asb topic).1 = some true ∧
        (net.delReader s.asb topic).2.readers.lookup topic = none ∧
        (net.delReader s.asb topic).2.masters m = (s.asb.masters m).shutdown
    else
      (net.delReader s.asb topic).1 = some false ∧
        (∃ e, (net.delReader s.asb topic).2.readers.lookup topic = some e ∧ e.ringmaster = m) ∧
        (net.delReader s.asb topic).2.masters = s.asb.masters

/-- No reader is deleted while the number of readers is one more than a positive multiple of
`2 ^ 16`. -/
def Unwrapped (s : Outstanding Val) : ReaderCall → Prop
  | .addReader => True
  | .delReader => s.readers % 2 ^ 16 = 1 → s.readers = 1

/-! ### The count -/

/-- The entry of the topic counts its readers, and goes with the last of them. -/
def Counts (topic : String) (m : MasterId) (tag : String) (s : Outstanding Val) : Prop :=
  s.asb.readers.lookup topic = some ⟨m, counted 16 s.readers, tag⟩ ∨
    s.asb.readers.lookup topic = none ∧ s.readers = 0

section

variable {net : Transport} {topic : String} {m : MasterId} {tag : String} {s s' : Outstanding Val}

theorem counts_start (asb : NetAsb Val) (topic : String) (m : MasterId) (tag : String) :
    Counts topic m tag (start asb topic m tag) :=
  .inl (AList.lookup_insert _)

theorem Counts.lookup (h : Counts topic m tag s) (hpos : 0 < s.readers) :
    s.asb.readers.lookup topic = some ⟨m, counted 16 s.readers, tag⟩ :=
  h.resolve_right fun hnone => hpos.ne' hnone.2

variable (net) in
theorem step_addReader (h : s.asb.readers.lookup topic = some ⟨m, counted 16 s.readers, tag⟩) :
    ∃ s', step net topic s .addReader = some s' ∧ s'.readers = s.readers + 1 ∧
      s'.asb.readers.lookup topic = some ⟨m, counted 16 s'.readers, tag⟩ := by
  simp only [step, Transport.addReader_eq, NetAsb.addReader, h]
  refine ⟨_, rfl, rfl, ?_⟩
  rw [AList.lookup_insert, counted_add_one]

/-- What the answer depends on is the count, so the number of readers modulo `2 ^ 16`. -/
theorem answered_iff
    (h : s.asb.readers.lookup topic = some ⟨m, counted 16 s.readers, tag⟩) :
    Answered net topic m s .delReader ↔ Unwrapped s .delReader := by
  obtain ⟨cancel, hdel⟩ := net.exists_cancel Val
  simp only [Answered, Unwrapped, hdel]
  have hcount := counted_eq_one_iff (w := 16) (by decide) s.readers
  by_cases hmod : s.readers % 2 ^ 16 = 1
  · obtain ⟨htrue, hgone, hshut⟩ := NetAsb.delReader_of_count_eq_one cancel h (hcount.2 hmod)
    by_cases hone : s.readers = 1
    · rw [if_pos hone]
      exact ⟨fun _ _ => hone, fun _ => ⟨htrue, hgone, hshut⟩⟩
    · rw [if_neg hone, htrue]
      refine ⟨fun hfalse => ?_, fun hwrap => absurd (hwrap hmod) hone⟩
      cases hfalse.1
  · have hone : s.readers ≠ 1 := fun h1 => hmod (by rw [h1]; rfl)
    rw [if_neg hone, NetAsb.delReader_of_count_ne_one cancel h fun h1 => hmod (hcount.1 h1)]
    refine ⟨fun _ h1 => absurd h1 hmod, fun _ => ⟨rfl, ⟨_, AList.lookup_insert _, rfl⟩, rfl⟩⟩

theorem Counts.step {c : ReaderCall} (h : Counts topic m tag s) (hc : Unwrapped s c)
    (hs : step net topic s c = some s') : Counts topic m tag s' := by
  cases c with
  | addReader =>
    rcases h with h | ⟨hnone, -⟩
    · obtain ⟨t, ht, -, hcount⟩ := step_addReader net h
      rw [ht] at hs
      cases hs
      exact .inl hcount
    · simp only [Outstanding.step, Transport.addReader_eq, NetAsb.addReader, hnone] at hs
      cases hs
  | delReader =>
    obtain ⟨cancel, hdel⟩ := net.exists_cancel Val
    simp only [Outstanding.step, hdel] at hs
    split_ifs at hs with hpos
    cases hs
    have hcount := counted_eq_one_iff (w := 16) (by decide) s.readers
    by_cases hone : s.readers = 1
    · refine .inr ⟨(NetAsb.delReader_of_count_eq_one cancel (h.lookup hpos) ?_).2.1, ?_⟩
      · exact hcount.2 (by rw [hone]; rfl)
      · show s.readers - 1 = 0
        omega
    · refine .inl ?_
      have hmod : counted 16 s.readers ≠ 1 := fun h1 => hone (hc (hcount.1 h1))
      rw [NetAsb.delReader_of_count_ne_one cancel (h.lookup hpos) hmod, AList.lookup_insert,
        ← counted_sub_one hpos]

variable (net) in
theorem run_addReader (n : ℕ)
    (h : s.asb.readers.lookup topic = some ⟨m, counted 16 s.readers, tag⟩) :
    ∃ s', run (step net topic) s (List.replicate n .addReader) = some s' ∧
      s'.readers = s.readers + n ∧
      s'.asb.readers.lookup topic = some ⟨m, counted 16 s'.readers, tag⟩ := by
  induction n generalizing s with
  | zero => exact ⟨s, rfl, rfl, h⟩
  | succ n ih =>
    obtain ⟨t, ht, hreaders, hcount⟩ := step_addReader net h
    obtain ⟨s', hrun, hreaders', hcount'⟩ := ih hcount
    refine ⟨s', ?_, by omega, hcount'⟩
    rw [List.replicate_succ, run_cons, ht]
    exact hrun

end

/-- **The last-reader test is right exactly away from the wrap**: in every sequence of calls on a
topic inserted with count zero. -/
theorem last_reader_iff (net : Transport) (asb : NetAsb Val) (topic : String) (m : MasterId)
    (tag : String) (calls : List ReaderCall) :
    EachStep (step net topic) (Answered net topic m) (start asb topic m tag) calls ↔
      EachStep (step net topic) Unwrapped (start asb topic m tag) calls := by
  refine EachStep.iff_of_inv (Counts topic m tag) (fun s c s' hcounts hs => ?_)
    (fun s c s' hcounts hc hs => hcounts.step hc hs) calls (counts_start asb topic m tag)
  cases c with
  | addReader => exact Iff.rfl
  | delReader =>
    simp only [step] at hs
    split_ifs at hs with hpos
    exact answered_iff (hcounts.lookup hpos)

/-- One of `2 ^ 16 + 1` readers is taken for the last. -/
theorem last_reader_misfires :
    ¬ EachStep (step .loopback "topic") (Answered .loopback "topic" 0)
      (start (.new : NetAsb Unit) "topic" 0 "topic")
      (List.replicate 65537 .addReader ++ [.delReader]) := by
  intro h
  have hstart : (start (.new : NetAsb Unit) "topic" 0 "topic").asb.readers.lookup "topic" =
      some ⟨0, counted 16 0, "topic"⟩ := AList.lookup_insert _
  obtain ⟨s, hrun, hreaders, hcount⟩ := run_addReader .loopback 65537 hstart
  have hnum : s.readers = 65537 := hreaders.trans (Nat.zero_add _)
  have hanswer := (EachStep.of_append h hrun _ (by rw [step, if_pos (by omega)])).1
  have hone := (answered_iff hcount).1 hanswer (by rw [hnum]; decide)
  omega

end Outstanding

end Rounac
