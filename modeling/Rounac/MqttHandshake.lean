import Rounac.Lib.Settle
import Rounac.Networks.NewMqtt

/-!
# What connecting to an MQTT broker comes to

The caller of `new_mqtt` and its event loop take their steps in any order, and more events may be
polled before the call has returned. What all comes to is decided by the sequence of events alone:
the call answers by the first acknowledgement, error or disconnect, and the loop replays the events
one by one on the connection, up to the first error or disconnect or the second acknowledgement,
which makes it panic (`handshake_settles`). A call that succeeds leaves a new connection of status
normal, for a loop that has more to tell waits until the call is over.

All this needs a thread that drives the runtime beside the caller's. Without one, the call waits
for ever.
-/

namespace Rounac

open StepSystem Settle

/-! ## The events in sequence -/

/-- The call that was waiting has this answer, unless it has one already. -/
def answered (r : Option (Res Unit)) (dflt : Res Unit) : Option (Res Unit) := some (r.getD dflt)

/-- The loop acts on an event, as one step. -/
def AsbConnection.react {Val : Type} (qx : QuickXml Val)
    (s : Option (Res Unit) × AsbConnection Val) (e : MqttEvent × Instant) :
    Option (Res Unit) × AsbConnection Val :=
  if s.2.loopRunning then
    match e.1 with
    | .connAck =>
      match s.1 with
      | none => (some (.ok ()), s.2)
      | some r => (some r, { s.2 with loopRunning := false })
    | .publish topic data => (s.1, (s.2.deliver qx topic e.2 data).getD s.2)
    | .incoming | .outgoing => s
    | .disconnect => (answered s.1 .panicked, { s.2 with loopRunning := false })
    | .error msg => (answered s.1 (.err (.netErr msg)), s.2.pollError)
  else s

/-- What the call answers. -/
def connectResult : List MqttEvent → Option (Res Unit)
  | [] => none
  | .connAck :: _ => some (.ok ())
  | .disconnect :: _ => some .panicked
  | .error msg :: _ => some (.err (.netErr msg))
  | .publish _ _ :: evts | .incoming :: evts | .outgoing :: evts => connectResult evts

def MqttEvent.isConnAck : MqttEvent → Bool
  | .connAck => true
  | _ => false

def MqttEvent.ends : MqttEvent → Bool
  | .disconnect | .error _ => true
  | _ => false

/-- The loop is polling after the events. -/
def KeepsPolling (evts : List MqttEvent) : Prop :=
  (∀ evt ∈ evts, evt.ends = false) ∧ evts.countP MqttEvent.isConnAck ≤ 1

/-! ## What a state comes to -/

def MqttCaller.result : MqttCaller → Option (Res Unit)
  | .receiving => none
  | .received init => some (answer init)
  | .returned r => some r

/-- The loop polls, or will. -/
def EvtLoop.isRunning : EvtLoop → Bool
  | .polling | .sending _ => true
  | .shuttingDown | .settingStatus | .ended | .panicked => false

namespace NewMqtt

variable {Val : Type}

/-- The connection that `connect` makes of the call. -/
def conn (s : NewMqtt Val) : AsbConnection Val :=
  { (AsbConnection.connected .mqtt none : AsbConnection Val) with
    asb := s.asb
    status := s.status
    loopRunning := s.evtLoop.isRunning }

def stopped (s : NewMqtt Val) : AsbConnection Val := { s.conn with loopRunning := false }

/-- What is left of `shutdown` and `set_status` is done. -/
def settled (s : NewMqtt Val) : Option (Res Unit) × AsbConnection Val :=
  match s.evtLoop with
  | .polling => (s.caller.result, s.conn)
  | .sending none =>
    match s.caller with
    | .receiving => (some (.ok ()), s.conn)
    | .received _ | .returned _ => (s.caller.result, s.stopped)
  | .sending (some msg) => (answered s.caller.result (.err (.netErr msg)), s.conn.pollError)
  | .shuttingDown => (answered s.caller.result .panicked, s.conn.pollError)
  | .settingStatus =>
    (answered s.caller.result .panicked, { s.stopped with status := setStatus s.status .failed })
  | .ended | .panicked => (answered s.caller.result .panicked, s.stopped)

/-- How many steps are left, at most. -/
def stepsLeft (s : NewMqtt Val) : ℕ :=
  (match s.evtLoop with
    | .sending (some _) => 3
    | .shuttingDown => 2
    | .sending none | .settingStatus => 1
    | .polling | .ended | .panicked => 0) +
  match s.caller with
    | .receiving | .received _ => 1
    | .returned _ => 0

/-- Nothing happens without a further event. -/
def AtRest (qx : QuickXml Val) (s : NewMqtt Val) : Prop :=
  ∀ a : NewMqttStep, a.event = none → s.step qx a = none

variable {qx : QuickXml Val} {s s' : NewMqtt Val}

/-- What the steps other than polls do. -/
inductive Moves (s : NewMqtt Val) : NewMqtt Val → Prop
  | deliver (init : Option String) (evtLoop : s.evtLoop = .sending init)
      (caller : s.caller = .receiving) :
      Moves s { s with caller := .received init, evtLoop := afterSend true init }
  | refuse (init : Option String) (r : Res Unit) (evtLoop : s.evtLoop = .sending init)
      (caller : s.caller = .returned r) : Moves s { s with evtLoop := afterSend false init }
  | shutDown (evtLoop : s.evtLoop = .shuttingDown) :
      Moves s { s with asb := MqttAsb.shutdown s.asb, evtLoop := .settingStatus }
  | fail (evtLoop : s.evtLoop = .settingStatus) :
      Moves s { s with status := setStatus s.status .failed, evtLoop := .ended }
  | answer (init : Option String) (caller : s.caller = .received init) :
      Moves s { s with caller := .returned (MqttCaller.answer init) }
  | hangUp (evtLoop : s.evtLoop = .ended ∨ s.evtLoop = .panicked) (caller : s.caller = .receiving) :
      Moves s { s with caller := .returned .panicked }

theorem moves_of_advanceLoop (h : s.advanceLoop = some s') : s.Moves s' := by
  obtain ⟨rt, caller, evtLoop, asb, status⟩ := s
  cases evtLoop with
  | sending init =>
    cases caller with
    | receiving =>
      cases h
      exact .deliver init rfl rfl
    | received init' => cases h
    | returned r =>
      cases h
      exact .refuse init r rfl rfl
  | shuttingDown =>
    cases h
    exact .shutDown rfl
  | settingStatus =>
    cases h
    exact .fail rfl
  | polling => cases h
  | ended => cases h
  | panicked => cases h

theorem moves_of_advanceCaller (h : s.advanceCaller = some s') : s.Moves s' := by
  obtain ⟨rt, caller, evtLoop, asb, status⟩ := s
  cases caller with
  | receiving =>
    cases evtLoop with
    | ended =>
      cases h
      exact .hangUp (.inl rfl) rfl
    | panicked =>
      cases h
      exact .hangUp (.inr rfl) rfl
    | polling => cases h
    | sending init => cases h
    | shuttingDown => cases h
    | settingStatus => cases h
  | received init =>
    cases h
    exact .answer init rfl
  | returned r => cases h

theorem moves_of_step {a : NewMqttStep} (h : s.step qx a = some s') (ha : a.event = none) :
    s.Moves s' := by
  cases a with
  | poll evt now => cases ha
  | evtLoop =>
    have hstep : (if s.runtime.Driven then s.advanceLoop else none) = some s' := h
    split_ifs at hstep
    exact moves_of_advanceLoop hstep
  | caller => exact moves_of_advanceCaller h

theorem Moves.settled_eq (h : s.Moves s') : s'.settled = s.settled := by
  obtain ⟨rt, caller, evtLoop, asb, status⟩ := s
  cases h with
  | deliver init hloop hcaller =>
    cases hloop
    cases hcaller
    cases init <;> rfl
  | refuse init r hloop hcaller =>
    cases hloop
    cases hcaller
    cases init <;> rfl
  | shutDown hloop =>
    cases hloop
    rfl
  | fail hloop =>
    cases hloop
    rfl
  | answer init hcaller =>
    cases hcaller
    cases evtLoop with
    | sending init' => cases init' <;> rfl
    | _ => rfl
  | hangUp hloop hcaller =>
    cases hcaller
    rcases hloop with hloop | hloop
    all_goals
      cases hloop
      rfl

theorem poll_of_step {evt : MqttEvent} {now : Instant} (h : s.step qx (.poll evt now) = some s') :
    s.evtLoop = .polling ∧ s.runtime.Driven ∧ s' = s.poll qx evt now := by
  obtain ⟨rt, caller, evtLoop, asb, status⟩ := s
  cases evtLoop with
  | polling =>
    have hstep : (if rt.Driven then some (poll qx ⟨rt, caller, .polling, asb, status⟩ evt now)
      else none) = some s' := h
    split_ifs at hstep with hdriven
    exact ⟨rfl, hdriven, (Option.some.inj hstep).symm⟩
  | _ => cases h

theorem settled_poll {evt : MqttEvent} {now : Instant} (h : s.evtLoop = .polling) :
    (s.poll qx evt now).settled = AsbConnection.react qx s.settled (evt, now) := by
  obtain ⟨rt, caller, evtLoop, asb, status⟩ := s
  cases h
  cases evt with
  | connAck => cases caller <;> rfl
  | _ => rfl

/-- **Each event is one reaction**, and the steps in between keep what the state comes to. -/
theorem settles (qx : QuickXml Val) :
    Settles (step qx) NewMqttStep.event (AsbConnection.react qx) settled where
  internal := fun h ha => (moves_of_step h ha).settled_eq
  event := by
    intro s s' a e h ha
    cases a with
    | poll evt now =>
      cases ha
      obtain ⟨hpolling, -, rfl⟩ := poll_of_step h
      exact settled_poll hpolling
    | evtLoop => cases ha
    | caller => cases ha

theorem Moves.stepsLeft_lt (h : s.Moves s') : s'.stepsLeft < s.stepsLeft := by
  obtain ⟨rt, caller, evtLoop, asb, status⟩ := s
  cases h with
  | deliver init hloop hcaller =>
    cases hloop
    cases hcaller
    cases init <;> simp [stepsLeft, afterSend]
  | refuse init r hloop hcaller =>
    cases hloop
    cases hcaller
    cases init <;> simp [stepsLeft, afterSend]
  | shutDown hloop =>
    cases hloop
    simp [stepsLeft]
  | fail hloop =>
    cases hloop
    simp [stepsLeft]
  | answer init hcaller =>
    cases hcaller
    simp [stepsLeft]
  | hangUp hloop hcaller =>
    cases hcaller
    simp [stepsLeft]

/-! ## At rest -/

/-- The answer that the call has given. -/
def returned (s : NewMqtt Val) : Option (Res Unit) :=
  match s.caller with
  | .returned r => some r
  | .receiving | .received _ => none

theorem settled_of_atRest (hdriven : s.runtime.Driven) (h : s.AtRest qx) :
    s.settled = (s.returned, s.conn) := by
  have hloop : s.advanceLoop = none := by
    have hstep : (if s.runtime.Driven then s.advanceLoop else none) = none := h .evtLoop rfl
    rwa [if_pos hdriven] at hstep
  have hcaller : s.advanceCaller = none := h .caller rfl
  obtain ⟨rt, caller, evtLoop, asb, status⟩ := s
  cases caller with
  | receiving =>
    cases evtLoop with
    | polling => rfl
    | sending init => cases hloop
    | shuttingDown => cases hloop
    | settingStatus => cases hloop
    | ended => cases hcaller
    | panicked => cases hcaller
  | received init => cases hcaller
  | returned r =>
    cases evtLoop with
    | sending init => cases hloop
    | shuttingDown => cases hloop
    | settingStatus => cases hloop
    | _ => rfl

end NewMqtt

/-! ## What the events come to -/

section

variable {Val : Type} (qx : QuickXml Val)

theorem foldl_react_of_stopped {s : Option (Res Unit) × AsbConnection Val}
    (h : s.2.loopRunning = false) (es : List (MqttEvent × Instant)) :
    es.foldl (AsbConnection.react qx) s = s := by
  induction es with
  | nil => rfl
  | cons e es ih =>
    have hreact : AsbConnection.react qx s e = s := by
      unfold AsbConnection.react
      rw [h]
      rfl
    rw [List.foldl_cons, hreact, ih]

theorem loopRunning_deliver (c : AsbConnection Val) (topic : String) (now : Instant)
    (data : ByteArray) : ((c.deliver qx topic now data).getD c).loopRunning = c.loopRunning := by
  unfold AsbConnection.deliver
  split
  · rfl
  · split_ifs <;> rfl
  · rfl

theorem status_deliver (c : AsbConnection Val) (topic : String) (now : Instant)
    (data : ByteArray) : ((c.deliver qx topic now data).getD c).status = c.status := by
  unfold AsbConnection.deliver
  split
  · rfl
  · split_ifs <;> rfl
  · rfl

theorem foldl_react_answered (r : Res Unit) (c : AsbConnection Val)
    (es : List (MqttEvent × Instant)) :
    (es.foldl (AsbConnection.react qx) (some r, c)).1 = some r := by
  induction es generalizing c with
  | nil => rfl
  | cons e es ih =>
    obtain ⟨c', hc'⟩ : ∃ c', AsbConnection.react qx (some r, c) e = (some r, c') := by
      unfold AsbConnection.react
      split_ifs
      · obtain ⟨evt, now⟩ := e
        cases evt <;> exact ⟨_, rfl⟩
      · exact ⟨c, rfl⟩
    rw [List.foldl_cons, hc', ih]

/-- The answer is that of the first event that gives one. -/
theorem foldl_react_fst {c : AsbConnection Val} (hc : c.loopRunning = true)
    (es : List (MqttEvent × Instant)) :
    (es.foldl (AsbConnection.react qx) (none, c)).1 = connectResult (es.map Prod.fst) := by
  induction es generalizing c with
  | nil => rfl
  | cons e es ih =>
    obtain ⟨evt, now⟩ := e
    rw [List.foldl_cons, List.map_cons, AsbConnection.react, if_pos hc]
    cases evt with
    | connAck => exact foldl_react_answered qx _ _ es
    | publish topic data => exact ih ((loopRunning_deliver qx c topic now data).trans hc)
    | incoming => exact ih hc
    | disconnect => exact foldl_react_answered qx _ _ es
    | outgoing => exact ih hc
    | error msg => exact foldl_react_answered qx _ _ es

/-- The loop polls on as long as nothing ends it, and for one acknowledgement. -/
theorem loopRunning_foldl_react {s : Option (Res Unit) × AsbConnection Val}
    (hs : s.2.loopRunning = true) (es : List (MqttEvent × Instant)) :
    (es.foldl (AsbConnection.react qx) s).2.loopRunning = true ↔
      (∀ evt ∈ es.map Prod.fst, evt.ends = false) ∧
        (es.map Prod.fst).countP MqttEvent.isConnAck + s.1.isSome.toNat ≤ 1 := by
  induction es generalizing s with
  | nil => simpa [hs] using s.1.isSome.toNat_le
  | cons e es ih =>
    obtain ⟨evt, now⟩ := e
    obtain ⟨r, c⟩ := s
    replace hs : c.loopRunning = true := hs
    rw [List.foldl_cons, List.map_cons, List.forall_mem_cons, List.countP_cons]
    cases evt with
    | connAck =>
      cases r with
      | none =>
        have hreact : AsbConnection.react qx (none, c) (.connAck, now) = (some (.ok ()), c) :=
          if_pos hs
        rw [hreact, ih (s := (some (.ok ()), c)) hs]
        simp [MqttEvent.ends, MqttEvent.isConnAck]
      | some r =>
        -- A second acknowledgement finds nobody at the channel, and the loop panics.
        have hreact : AsbConnection.react qx (some r, c) (.connAck, now) =
            (some r, { c with loopRunning := false }) := if_pos hs
        rw [hreact, foldl_react_of_stopped qx rfl]
        simp [MqttEvent.isConnAck]
    | publish topic data =>
      have hreact : AsbConnection.react qx (r, c) (.publish topic data, now) =
          (r, (c.deliver qx topic now data).getD c) := if_pos hs
      rw [hreact, ih (s := (r, (c.deliver qx topic now data).getD c))
        ((loopRunning_deliver qx c topic now data).trans hs)]
      simp [MqttEvent.ends, MqttEvent.isConnAck]
    | incoming =>
      have hreact : AsbConnection.react qx (r, c) (.incoming, now) = (r, c) := if_pos hs
      rw [hreact, ih (s := (r, c)) hs]
      simp [MqttEvent.ends, MqttEvent.isConnAck]
    | disconnect =>
      have hreact : AsbConnection.react qx (r, c) (.disconnect, now) =
          (answered r .panicked, { c with loopRunning := false }) := if_pos hs
      rw [hreact, foldl_react_of_stopped qx rfl]
      simp [MqttEvent.ends]
    | outgoing =>
      have hreact : AsbConnection.react qx (r, c) (.outgoing, now) = (r, c) := if_pos hs
      rw [hreact, ih (s := (r, c)) hs]
      simp [MqttEvent.ends, MqttEvent.isConnAck]
    | error msg =>
      have hreact : AsbConnection.react qx (r, c) (.error msg, now) =
          (answered r (.err (.netErr msg)), c.pollError) := if_pos hs
      rw [hreact, foldl_react_of_stopped qx rfl]
      simp [MqttEvent.ends, AsbConnection.pollError]

/-- The loop polled an error before anything ended it. -/
def Fails (evts : List MqttEvent) : Prop :=
  ∃ pre msg post, evts = pre ++ .error msg :: post ∧ KeepsPolling pre

theorem KeepsPolling.not_fails {evts : List MqttEvent} (h : KeepsPolling evts) : ¬ Fails evts := by
  rintro ⟨pre, msg, post, rfl, -⟩
  have hends := h.1 (.error msg) (List.mem_append_right _ List.mem_cons_self)
  cases hends

theorem fails_append_singleton {evts : List MqttEvent} {evt : MqttEvent} :
    Fails (evts ++ [evt]) ↔ Fails evts ∨ (∃ msg, evt = .error msg) ∧ KeepsPolling evts := by
  constructor
  · rintro ⟨pre, msg, post, heq, hpre⟩
    rcases List.eq_nil_or_concat post with rfl | ⟨post, e, rfl⟩
    · obtain ⟨rfl, hevt⟩ := List.append_inj' heq rfl
      cases hevt
      exact .inr ⟨⟨msg, rfl⟩, hpre⟩
    · rw [List.concat_eq_append, ← List.cons_append, ← List.append_assoc] at heq
      exact .inl ⟨pre, msg, post, (List.append_inj' heq rfl).1, hpre⟩
  · rintro (⟨pre, msg, post, rfl, hpre⟩ | ⟨⟨msg, rfl⟩, hpre⟩)
    · exact ⟨pre, msg, post ++ [evt], by simp, hpre⟩
    · exact ⟨evts, msg, [], rfl, hpre⟩

/-- The events, replayed on a new connection. -/
def replay (es : List (MqttEvent × Instant)) : Option (Res Unit) × AsbConnection Val :=
  es.foldl (AsbConnection.react qx) (none, .connected .mqtt none)

theorem loopRunning_replay (es : List (MqttEvent × Instant)) :
    (replay qx es).2.loopRunning = true ↔ KeepsPolling (es.map Prod.fst) :=
  loopRunning_foldl_react qx (s := (none, .connected .mqtt none)) rfl es

theorem replay_append_singleton (es : List (MqttEvent × Instant)) (e : MqttEvent × Instant) :
    replay qx (es ++ [e]) = AsbConnection.react qx (replay qx es) e := by
  unfold replay
  rw [List.foldl_append]
  rfl

/-- An error sets the status, and nothing else changes it. -/
theorem status_react {s : Option (Res Unit) × AsbConnection Val} {e : MqttEvent × Instant} :
    ((s.2.loopRunning = true ∧ ∃ msg, e.1 = .error msg) →
      (AsbConnection.react qx s e).2.status = .failed) ∧
    (¬ (s.2.loopRunning = true ∧ ∃ msg, e.1 = .error msg) →
      (AsbConnection.react qx s e).2.status = s.2.status) := by
  obtain ⟨r, c⟩ := s
  obtain ⟨evt, now⟩ := e
  unfold AsbConnection.react
  by_cases hc : c.loopRunning = true
  · rw [if_pos hc]
    cases evt with
    | connAck => cases r <;> simp
    | publish topic data => simpa using status_deliver qx c topic now data
    | error msg => simp [hc, AsbConnection.pollError]
    | _ => simp
  · rw [if_neg hc]
    exact ⟨fun h => absurd h.1 hc, fun _ => rfl⟩

/-- The status is `Failed` exactly after an error, and `Normal` otherwise. -/
theorem status_replay (es : List (MqttEvent × Instant)) :
    (Fails (es.map Prod.fst) → (replay qx es).2.status = .failed) ∧
      (¬ Fails (es.map Prod.fst) → (replay qx es).2.status = .normal) := by
  induction es using List.reverseRecOn with
  | nil =>
    refine ⟨fun ⟨pre, msg, post, heq, _⟩ => ?_, fun _ => rfl⟩
    exact absurd heq (by simp)
  | append_singleton es e ih =>
    obtain ⟨herror, hother⟩ := status_react qx (s := replay qx es) (e := e)
    rw [List.map_append, List.map_singleton, fails_append_singleton, replay_append_singleton]
    rw [loopRunning_replay] at herror hother
    constructor
    · rintro (hfails | ⟨hmsg, hpolling⟩)
      · exact (hother fun h => h.1.not_fails hfails).trans (ih.1 hfails)
      · exact herror ⟨hpolling, hmsg⟩
    · intro hnot
      rw [not_or] at hnot
      exact (hother fun h => hnot.2 ⟨h.2, h.1⟩).trans (ih.2 hnot.1)

end

/-! ## The call -/

namespace NewMqtt

variable {Val : Type} {qx : QuickXml Val}

/-- The registry is empty and the status normal, and the loop does not shut down, as long as the
call has neither failed nor returned. -/
structure Fresh (s : NewMqtt Val) : Prop where
  asb : s.asb = .new
  status : s.status = .normal
  evtLoop : s.evtLoop ≠ .shuttingDown ∧ s.evtLoop ≠ .settingStatus

/-- The call may still succeed. -/
def Pending (s : NewMqtt Val) : Prop := s.caller = .receiving ∨ s.caller = .received none

theorem Moves.fresh {s s' : NewMqtt Val} (h : s.Pending → s.Fresh) (hmove : s.Moves s') :
    s'.Pending → s'.Fresh := by
  cases hmove with
  | deliver init hloop hcaller =>
    obtain ⟨hasb, hstatus, -⟩ := h (.inl hcaller)
    cases init with
    | none => exact fun _ => ⟨hasb, hstatus, nofun, nofun⟩
    | some msg =>
      rintro (hp | hp)
      · cases hp
      · cases hp
  | refuse init r hloop hcaller =>
    rintro (hp | hp)
    · cases hcaller.symm.trans hp
    · cases hcaller.symm.trans hp
  | shutDown hloop => exact fun hp => absurd hloop (h hp).evtLoop.1
  | fail hloop => exact fun hp => absurd hloop (h hp).evtLoop.2
  | answer init hcaller =>
    rintro (hp | hp)
    · cases hp
    · cases hp
  | hangUp hloop hcaller =>
    rintro (hp | hp)
    · cases hp
    · cases hp

theorem handleMsg_new (qx : QuickXml Val) (topic : String) (now : Instant) (data : ByteArray) :
    MqttAsb.handleMsg qx .new topic now data = .new := rfl

theorem fresh_poll {s : NewMqtt Val} {evt : MqttEvent} {now : Instant}
    (h : s.Pending → s.Fresh) : (s.poll qx evt now).Pending → (s.poll qx evt now).Fresh := by
  obtain ⟨rt, caller, evtLoop, asb, status⟩ := s
  cases evt with
  | connAck => exact fun hp => ⟨(h hp).asb, (h hp).status, nofun, nofun⟩
  | publish topic data =>
    intro hp
    obtain ⟨rfl, hstatus, hloop⟩ := h hp
    exact ⟨handleMsg_new qx topic now data, hstatus, hloop⟩
  | incoming => exact h
  | disconnect => exact fun hp => ⟨(h hp).asb, (h hp).status, nofun, nofun⟩
  | outgoing => exact h
  | error msg => exact fun hp => ⟨(h hp).asb, (h hp).status, nofun, nofun⟩

theorem fresh_step {s s' : NewMqtt Val} {a : NewMqttStep} (h : s.Pending → s.Fresh)
    (hstep : s.step qx a = some s') : s'.Pending → s'.Fresh := by
  cases a with
  | poll evt now =>
    obtain ⟨-, -, rfl⟩ := poll_of_step hstep
    exact fresh_poll h
  | evtLoop => exact (moves_of_step hstep rfl).fresh h
  | caller => exact (moves_of_step hstep rfl).fresh h

theorem runtime_step {s s' : NewMqtt Val} {a : NewMqttStep} (h : s.step qx a = some s') :
    s'.runtime = s.runtime := by
  cases a with
  | poll evt now =>
    obtain ⟨-, -, rfl⟩ := poll_of_step h
    cases evt <;> rfl
  | evtLoop => cases moves_of_step h rfl <;> rfl
  | caller => cases moves_of_step h rfl <;> rfl

theorem step_start_eq_none {rt : MqttRuntime} (h : ¬ rt.Driven) (a : NewMqttStep) :
    (start rt : NewMqtt Val).step qx a = none := by
  cases a with
  | poll evt now => exact if_neg h
  | evtLoop => exact if_neg h
  | caller => rfl

theorem stepsLeft_le (s : NewMqtt Val) : s.stepsLeft ≤ 4 := by
  obtain ⟨rt, caller, evtLoop, asb, status⟩ := s
  cases evtLoop with
  | sending init => cases init <;> cases caller <;> simp [stepsLeft]
  | _ => cases caller <;> simp [stepsLeft]

theorem settled_of_returned {s : NewMqtt Val} {r : Res Unit} (h : s.returned = some r) :
    s.settled.1 = some r := by
  obtain ⟨rt, caller, evtLoop, asb, status⟩ := s
  cases caller with
  | receiving => cases h
  | received init => cases h
  | returned r' =>
    cases h
    cases evtLoop with
    | sending init => cases init <;> rfl
    | _ => rfl

theorem pending_of_succeeds {s s' : NewMqtt Val} (h : s.advanceCaller = some s')
    (hok : s'.returned = some (.ok ())) : s.Pending := by
  obtain ⟨rt, caller, evtLoop, asb, status⟩ := s
  cases caller with
  | receiving => exact .inl rfl
  | received init =>
    cases init with
    | none => exact .inr rfl
    | some msg =>
      cases h
      cases hok
  | returned r => cases h

def polled (acts : List NewMqttStep) : List (MqttEvent × Instant) :=
  acts.filterMap NewMqttStep.event

/-- **Connecting to an MQTT broker is decided by the events alone**, in every interleaving of the
call and its event loop: the call answers by the first acknowledgement, error or disconnect, and the
connection is what the events in sequence make of a new one, within four steps of the last event.
When the call succeeds, the connection is as new, and its status is normal. On a runtime that nobody
else drives, nothing happens at all. -/
theorem handshake_settles (qx : QuickXml Val) (rt : MqttRuntime) {acts : List NewMqttStep}
    {s : NewMqtt Val} (hrun : run (step qx) (start rt) acts = some s) :
    (∀ r, s.returned = some r → connectResult ((polled acts).map Prod.fst) = some r) ∧
    (∀ s', s.step qx .caller = some s' → s'.returned = some (.ok ()) →
      s.asb = .new ∧ s.status = .normal) ∧
    (¬ rt.Driven → s = start rt ∧ ∀ a, s.step qx a = none) ∧
    (rt.Driven →
      (∀ more s', (∀ a ∈ more, a.event = none) → run (step qx) s more = some s' →
        more.length ≤ 4) ∧
      (s.AtRest qx →
        s.returned = connectResult ((polled acts).map Prod.fst) ∧
        s.conn = (replay qx (polled acts)).2 ∧
        (s.conn.loopRunning = true ↔ KeepsPolling ((polled acts).map Prod.fst)) ∧
        (Fails ((polled acts).map Prod.fst) → s.conn.status = .failed) ∧
        (¬ Fails ((polled acts).map Prod.fst) → s.conn.status = .normal))) := by
  -- The events polled alone decide what a state settles to, whatever was interleaved.
  have hsettled : s.settled = replay qx (polled acts) := (settles qx).run_eq hrun
  have hresult : s.settled.1 = connectResult ((polled acts).map Prod.fst) := by
    rw [hsettled]
    exact foldl_react_fst qx rfl _
  have hruntime : Always (step qx) (fun s => s.runtime = rt) (start rt) acts :=
    .of_step (fun t a t' ht hstep => (runtime_step hstep).trans ht) acts rfl
  have hfresh : Always (step qx) (fun s => s.Pending → s.Fresh) (start rt) acts :=
    .of_step (fun t a t' ht hstep => fresh_step ht hstep) acts fun _ => ⟨rfl, rfl, nofun, nofun⟩
  refine ⟨fun r hr => ?_, fun s' hstep hok => ?_, fun hidle => ?_, fun hdriven => ⟨?_, ?_⟩⟩
  · rw [← hresult]
    exact settled_of_returned hr
  · have hpending := pending_of_succeeds hstep hok
    exact ⟨(hfresh.last hrun hpending).asb, (hfresh.last hrun hpending).status⟩
  · cases acts with
    | nil =>
      cases hrun
      exact ⟨rfl, step_start_eq_none hidle⟩
    | cons a acts =>
      rw [run_cons, step_start_eq_none hidle] at hrun
      cases hrun
  · intro more s' hmore hrun'
    -- Without a poll every step lowers the measure.
    have hle := length_le_of_lowers (fun _ => True) (·.event = none) stepsLeft
      (fun _ ha hstep => ⟨trivial, (moves_of_step hstep ha).stepsLeft_lt⟩) trivial hmore hrun'
    have hmax := s.stepsLeft_le
    omega
  · intro hrest
    rw [← hruntime.last hrun] at hdriven
    have heq := (settled_of_atRest hdriven hrest).symm.trans hsettled
    have hconn : s.conn = (replay qx (polled acts)).2 := congrArg Prod.snd heq
    refine ⟨?_, hconn, ?_, ?_⟩
    · rw [← hresult, settled_of_atRest hdriven hrest]
    · rw [hconn, loopRunning_replay]
    · rw [hconn]
      exact status_replay qx _

/-- The broker accepts, and goes away before the call has returned. -/
def brokerGone : List NewMqttStep :=
  [.poll .connAck 0, .evtLoop, .poll (.error "gone") 1, .caller, .evtLoop, .evtLoop, .evtLoop]

/-- The call succeeds, and the status is set afterwards. -/
theorem handshake_settles_gone :
    ∃ s : NewMqtt Unit, run (step .unit) (start .own) brokerGone = some s ∧
      s.returned = some (.ok ()) ∧ s.conn.status = .failed := by
  let s : NewMqtt Unit := ⟨.own, .returned (.ok ()), .ended, MqttAsb.shutdown .new, .failed⟩
  have hrun : run (step .unit) (start .own) brokerGone = some s := rfl
  have hrest : s.AtRest .unit := by
    intro a ha
    cases a with
    | poll evt now => cases ha
    | evtLoop => rfl
    | caller => rfl
  have hfails : Fails ((polled brokerGone).map Prod.fst) :=
    ⟨[.connAck], "gone", [], rfl, by simp [MqttEvent.ends], by decide⟩
  obtain ⟨-, -, -, hdriven⟩ := handshake_settles .unit .own hrun
  obtain ⟨hreturned, -, -, hfailed, -⟩ := (hdriven trivial).2 hrest
  exact ⟨s, hrun, hreturned, hfailed hfails⟩

end NewMqtt

end Rounac
