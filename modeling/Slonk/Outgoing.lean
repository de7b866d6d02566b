/-
# Outgoing messages

`outgoing.rs`: the messages sent to the dashboard and `DashChannel::send`.  A channel is either
absent or the list of the messages the current dashboard has received in full; a message that
could only be written in part ends the channel, so nothing follows it.  The message log is the
list of its complete lines, a time and a message each; what a failed log write leaves in the
file is not tracked.

Both locks are held for the whole of `send`, so the call is atomic.
-/
import Slonk.Config

namespace Slonk

/-- A value behind a `Mutex` or an `RwLock`. -/
structure Locked (α : Type) where
  val : α
  poisoned : Bool
  deriving DecidableEq, Repr

/-- `Mutex::new`, `RwLock::new`. -/
def Locked.new {α : Type} (val : α) : Locked α := ⟨val, false⟩

/-- `SensorReading`.  The time is in nanoseconds since the UNIX epoch. -/
structure SensorReading where
  sensorId : UInt8
  reading : UInt16
  time : Nat
  deriving DecidableEq, Repr

/-- `Message`. -/
inductive Message
  | config (config : Configuration)
  | sensorValue (groupId : UInt8) (readings : List SensorReading)
  | driverValue (values : List Bool)
  deriving DecidableEq, Repr

/-- `outgoing::Error`. -/
inductive OutgoingError
  | logFile
  | poison
  deriving DecidableEq, Repr

/-- `DashChannel`. -/
structure DashChannel where
  dashChannel : Locked (Option (List Message))
  messageLog : Locked (List (Nat × Message))
  deriving DecidableEq, Repr

/-- `DashChannel::new`. -/
def DashChannel.new : DashChannel := ⟨Locked.new none, Locked.new []⟩

/-- `DashChannel::send` at the time `now`, where writing to the dashboard and writing to the
message log succeed or fail as given. -/
def DashChannel.send (d : DashChannel) (message : Message) (now : Nat)
    (chanFails messageLogFails : Bool) : Except OutgoingError Unit × DashChannel :=
  if d.dashChannel.poisoned then (.error .poison, d)
  else if d.messageLog.poisoned then (.error .poison, d)
  else match d.dashChannel.val with
    | none => (.ok (), d)
    | some sent =>
      -- "the connection was closed"
      if chanFails then (.ok (), { d with dashChannel.val := none })
      else if messageLogFails then
        (.error .logFile, { d with dashChannel.val := some (sent ++ [message]) })
      else
        (.ok (), { dashChannel := { d.dashChannel with val := some (sent ++ [message]) },
                   messageLog := { d.messageLog with
                     val := d.messageLog.val ++ [(now, message)] } })

/-- `DashChannel::has_target`. -/
def DashChannel.hasTarget (d : DashChannel) : Except OutgoingError Bool :=
  if d.dashChannel.poisoned then .error .poison else .ok d.dashChannel.val.isSome

/-- `DashChannel::set_channel`. -/
def DashChannel.setChannel (d : DashChannel) (channel : Option (List Message)) :
    Except OutgoingError Unit × DashChannel :=
  if d.dashChannel.poisoned then (.error .poison, d)
  else (.ok (), { d with dashChannel.val := channel })

/-- `send` fails only on a poisoned lock or a failing message log. -/
theorem DashChannel.send_ok {d : DashChannel} (hc : d.dashChannel.poisoned = false)
    (hm : d.messageLog.poisoned = false) (message : Message) (now : Nat) (chanFails : Bool) :
    (d.send message now chanFails false).1 = .ok () := by
  unfold DashChannel.send
  simp only [hc, hm, Bool.false_eq_true, if_false]
  cases d.dashChannel.val with
  | none => rfl
  | some sent => cases chanFails <;> rfl

/-- `send` poisons nothing. -/
theorem DashChannel.send_poisoned (d : DashChannel) (message : Message) (now : Nat)
    (chanFails messageLogFails : Bool) :
    (d.send message now chanFails messageLogFails).2.dashChannel.poisoned
        = d.dashChannel.poisoned ∧
      (d.send message now chanFails messageLogFails).2.messageLog.poisoned
        = d.messageLog.poisoned := by
  unfold DashChannel.send
  split
  · exact ⟨rfl, rfl⟩
  · split
    · exact ⟨rfl, rfl⟩
    · cases d.dashChannel.val with
      | none => exact ⟨rfl, rfl⟩
      | some sent => cases chanFails <;> cases messageLogFails <;> exact ⟨rfl, rfl⟩

end Slonk
