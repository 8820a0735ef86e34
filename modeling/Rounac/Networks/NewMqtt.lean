import Rounac.Networks.Connection

/-!
# Connecting to an MQTT broker

`AsbNetMode::new_mqtt` of `src/networks.rs`, from where the event loop has been spawned. The loop is
a task of a runtime, and tells of the first acknowledgement or error over a channel of capacity
zero, on which the caller waits. A send blocks until the caller takes the message, and fails when
the receiver is gone, which it is once `new_mqtt` has returned.

What `poll` answers comes from outside. The task runs on a thread that `new_mqtt` starts, or, when
the caller is inside of a runtime, on the other threads of that runtime.
-/

namespace Rounac

/-- What `EventLoop::poll` answers. -/
inductive MqttEvent
  | connAck
  | publish (topic : String) (data : ByteArray)
  /-- Any other incoming packet. -/
  | incoming
  /-- The outgoing disconnect. -/
  | disconnect
  /-- Any other outgoing packet. -/
  | outgoing
  | error (msg : String)

/-- The runtime that the event loop is spawned on. -/
inductive MqttRuntime
  /-- Created by `new_mqtt`, and driven by a thread of its own. -/
  | own
  /-- That of the caller, with the threads that drive it beside the caller's. -/
  | current (others : ℕ)

/-- Some thread drives the runtime while the caller waits. -/
def MqttRuntime.Driven : MqttRuntime → Prop
  | .own => True
  | .current others => 0 < others

instance : DecidablePred MqttRuntime.Driven
  | .own => inferInstanceAs (Decidable True)
  | .current others => inferInstanceAs (Decidable (0 < others))

/-- Where the event loop stands. -/
inductive EvtLoop
  | polling
  /-- In `init_send.send`. -/
  | sending (init : Option String)
  | shuttingDown
  | settingStatus
  | ended
  | panicked

/-- Where the caller of `new_mqtt` stands. -/
inductive MqttCaller
  /-- In `init_recv.recv`. -/
  | receiving
  | received (init : Option String)
  | returned (r : Res Unit)

/-- A call of `new_mqtt` with its event loop. -/
structure NewMqtt (Val : Type) where
  runtime : MqttRuntime
  caller : MqttCaller
  evtLoop : EvtLoop
  asb : NetAsb Val
  status : AsbConnStatus

/-- The loop polls an event, or takes its next step; or the caller does. -/
inductive NewMqttStep
  | poll (evt : MqttEvent) (now : Instant)
  | evtLoop
  | caller

def NewMqttStep.event : NewMqttStep → Option (MqttEvent × Instant)
  | .poll evt now => some (evt, now)
  | .evtLoop | .caller => none

/-- What `new_mqtt` returns for what it received. -/
def MqttCaller.answer : Option String → Res Unit
  | none => .ok ()
  | some e => .err (.netErr e)

namespace NewMqtt

variable {Val : Type}

/-- The event loop has been spawned. -/
def start (rt : MqttRuntime) : NewMqtt Val where
  runtime := rt
  caller := .receiving
  evtLoop := .polling
  asb := .new
  status := .normal

variable (qx : QuickXml Val)

def poll (s : NewMqtt Val) (evt : MqttEvent) (now : Instant) : NewMqtt Val :=
  match evt with
  | .connAck => { s with evtLoop := .sending none }
  | .publish topic data => { s with asb := MqttAsb.handleMsg qx s.asb topic now data }
  | .incoming | .outgoing => s
  | .disconnect => { s with evtLoop := .ended }
  | .error e => { s with evtLoop := .sending (some e) }

/-- What a send leads to: the error of the acknowledgement's is unwrapped, that of an error's is
ignored. -/
def afterSend : (delivered : Bool) → Option String → EvtLoop
  | true, none => .polling
  | false, none => .panicked
  | _, some _ => .shuttingDown

/-- The next step of the loop, other than a poll. -/
def advanceLoop (s : NewMqtt Val) : Option (NewMqtt Val) :=
  match s.evtLoop with
  | .sending init =>
    match s.caller with
    | .receiving => some { s with caller := .received init, evtLoop := afterSend true init }
    -- The receiver is there, and nobody receives.
    | .received _ => none
    | .returned _ => some { s with evtLoop := afterSend false init }
  | .shuttingDown => some { s with asb := MqttAsb.shutdown s.asb, evtLoop := .settingStatus }
  | .settingStatus => some { s with status := setStatus s.status .failed, evtLoop := .ended }
  | .polling | .ended | .panicked => none

/-- The next step of the caller. A task that is over has dropped the sender, and the error of the
`recv` is unwrapped. -/
def advanceCaller (s : NewMqtt Val) : Option (NewMqtt Val) :=
  match s.caller with
  | .receiving =>
    match s.evtLoop with
    | .ended | .panicked => some { s with caller := .returned .panicked }
    | .polling | .sending _ | .shuttingDown | .settingStatus => none
  | .received init => some { s with caller := .returned (MqttCaller.answer init) }
  | .returned _ => none

def step (s : NewMqtt Val) : NewMqttStep → Option (NewMqtt Val)
  | .poll evt now =>
    match s.evtLoop with
    | .polling => if s.runtime.Driven then some (s.poll qx evt now) else none
    | .sending _ | .shuttingDown | .settingStatus | .ended | .panicked => none
  | .evtLoop => if s.runtime.Driven then s.advanceLoop else none
  | .caller => s.advanceCaller

end NewMqtt

end Rounac
