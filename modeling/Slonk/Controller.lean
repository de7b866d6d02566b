/-
# The controller, lock by lock

In `Operations.lean` a critical section is one operation.  Here the taking of a lock and the giving
back are operations of their own, so that a thread can be seen waiting for a lock, or holding one
while it does something else.  What is done in between is an operation as before: those of
`Operations.lean`, and the ones that only the listeners and the accept loop perform.

* `Act` are the operations and `run` is what they do to a `Controller`, where `World` decides
  everything that comes from outside: clocks, failures, readings, connections.
* `critical` puts the locks of the source around each operation of `Operations.lean`, so the
  programs of `Execution.lean` and `Server.lean` are taken over as they are (`Prog.expand`).
* `Locks` says which operations are about a lock, `Nests` and `NestsStatus` which locks the source
  nests.

A thread that panics while it holds a guard poisons the lock (`unwind`).  A poisoned lock can
still be taken; the one who takes it is told, and gives it back.
-/
import Slonk.Server
import Slonk.Monitoring
import Slonk.Concurrency.Handlers

namespace Slonk

open Concurrency

/-! ## 1. The shared state -/

/-- The locks of the controller. -/
inductive Lock
  /-- the `RwLock` of the state guard -/
  | state
  /-- the mutex of an ADC -/
  | adc (i : UInt8)
  /-- the mutex of the SPI bus -/
  | bus
  /-- the mutex of the driver lines -/
  | driverLines
  /-- the `RwLock` of the channel to the dashboard -/
  | dashChannel
  /-- the mutex of the message log -/
  | messageLog
  /-- the mutex of the command log -/
  | cmdLog
  /-- the mutex of the user log -/
  | userLog
  deriving DecidableEq, Repr

/-- The log file of a sensor: the index of its group among the log files, and its own. -/
structure LogFile where
  group : Nat
  sensor : Nat
  deriving DecidableEq, Repr

/-- What the threads share, and the files and pins they have for themselves. -/
structure Controller where
  shared : Shared
  adcPoisoned : UInt8 → Bool
  busPoisoned : Bool
  driverLog : String
  sensorLogs : LogFile → String
  heartbeatPin : Bool

namespace Controller

/-- The controller as `run` sets it up, over driver lines at these levels. -/
def new (lines : List Bool) : Controller :=
  ⟨Shared.new lines, fun _ => false, false, "", fun _ => "", false⟩

/-- Is the lock poisoned? -/
def poisoned (c : Controller) : Lock → Bool
  | .state => c.shared.state.poisoned
  | .adc i => c.adcPoisoned i
  | .bus => c.busPoisoned
  | .driverLines => c.shared.driverLines.poisoned
  | .dashChannel => c.shared.toDash.dashChannel.poisoned
  | .messageLog => c.shared.toDash.messageLog.poisoned
  | .cmdLog => c.shared.cmdLog.poisoned
  | .userLog => c.shared.userLog.poisoned

/-- The lock's guard is dropped by a panic. -/
def poison (c : Controller) : Lock → Controller
  | .state => { c with shared.state.poisoned := true }
  | .adc i => { c with adcPoisoned := Function.update c.adcPoisoned i true }
  | .bus => { c with busPoisoned := true }
  | .driverLines => { c with shared.driverLines.poisoned := true }
  | .dashChannel => { c with shared.toDash.dashChannel.poisoned := true }
  | .messageLog => { c with shared.toDash.messageLog.poisoned := true }
  | .cmdLog => { c with shared.cmdLog.poisoned := true }
  | .userLog => { c with shared.userLog.poisoned := true }

/-- What no lock is about is as it was after a panic. -/
theorem foldl_poison {β : Type} {f : Controller → β} (hf : ∀ c l, f (poison c l) = f c)
    (guards : List Lock) (c : Controller) : f (guards.foldl poison c) = f c := by
  induction guards generalizing c with
  | nil => rfl
  | cons l guards ih => rw [List.foldl_cons, ih, hf]

/-- No lock is poisoned. -/
def Sound (c : Controller) : Prop := ∀ l, c.poisoned l = false

/-- `Sound`, as a check. -/
def sound (c : Controller) : Bool :=
  [Lock.state, .bus, .driverLines, .dashChannel, .messageLog, .cmdLog, .userLog].all
    (fun l => !c.poisoned l) && (List.range 256).all fun i => !c.adcPoisoned (UInt8.ofNat i)

theorem sound_of_sound {c : Controller} (h : c.sound = true) : c.Sound := by
  simp only [sound, Bool.and_eq_true, List.all_eq_true, List.mem_range, Bool.not_eq_true'] at h
  intro l
  cases l with
  | adc i => simpa [poisoned] using h.2 i.toNat i.toNat_lt
  | _ => exact h.1 _ (by simp)

end Controller

/-- What the outside world decides when an operation runs. -/
structure World extends Env where
  adcResult : Except Spi.Error UInt16
  lineReadFails : Bool
  driverLogFails : Bool
  sensorLogFails : Bool
  heartbeatFails : Bool
  incoming : Except ErrorKind Source
  peerAddr : Except ErrorKind String
  tryClone : Except ErrorKind Unit

/-- Nothing fails, and clients send nothing. -/
def World.fine : World :=
  { Env.fine with
    adcResult := .ok 0, lineReadFails := false, driverLogFails := false, sensorLogFails := false,
    heartbeatFails := false, incoming := .ok [], peerAddr := .ok "", tryClone := .ok () }

/-! ## 2. The operations -/

/-- The operations. -/
inductive Act
  /-- a lock is taken -/
  | acquire (l : Lock) (mode : Mode)
  /-- a guard is dropped -/
  | release (l : Lock)
  /-- a panic, with these guards held -/
  | unwind (guards : List Lock)
  /-- an operation of `Operations.lean` -/
  | op (o : Op)
  /-- `*s` in `Guard::status` -/
  | status
  /-- `is_some()` in `has_target` -/
  | hasTarget
  /-- the assignment in `set_channel(Some(..))` -/
  | setChannel
  /-- the `transfer` of an ADC read, once it has the bus, and the number decoded from it -/
  | readAdc (adc channel : UInt8)
  /-- `len()` of the driver lines -/
  | lineCount
  /-- `driver_line.read()` -/
  | readLine (driverIdx : Nat)
  /-- `write_driver_log(log_file, read_time, &driver_states)` -/
  | writeDriverLog (readTime : Nat) (driverStates : List Bool)
  /-- `write_sensor_log(&mut log_files[sensor_id], reading_queue.iter())` -/
  | writeSensorLog (file : LogFile) (rows : List String)
  /-- `pin.write(value)` of the heartbeat -/
  | heartbeat (value : Bool)
  /-- `thread_scope.spawn(|| emergency_stop(..))`, on a host that can start the thread -/
  | spawnStop
  /-- `listener.incoming()` yields a stream or an error -/
  | accept
  /-- `stream.peer_addr()` -/
  | peerAddr
  /-- `stream.try_clone()` -/
  | tryClone
  deriving DecidableEq

/-- What they answer.  To take a lock is to learn whether it is poisoned. -/
@[reducible] def Act.Ans : Act → Type
  | acquire _ _ => Bool
  | release _ => Unit
  | unwind _ => Empty
  | op o => o.Ans
  | status => Except StateError State
  | hasTarget => Except OutgoingError Bool
  | setChannel => Except OutgoingError Unit
  | readAdc _ _ => Except Spi.Error UInt16
  | lineCount => Nat
  | readLine _ => Except Unit Bool
  | writeDriverLog _ _ => Except Unit Unit
  | writeSensorLog _ _ => Except Unit Unit
  | heartbeat _ => Except Unit Unit
  | spawnStop => Unit
  | accept => Except ErrorKind Source
  | peerAddr => Except ErrorKind String
  | tryClone => Except ErrorKind Unit

/-- The text `write_driver_log` writes. -/
def driverLine (readTime : Nat) (driverStates : List Bool) : String :=
  s!"{readTime}," ++ String.join (driverStates.map fun state => s!"{state},") ++ "\n"

/-- The text `write_sensor_log` writes. -/
def sensorLines (rows : List String) : String := String.join (rows.map fun row => row ++ "\n")

/-- Writing a text to a file: some of it is there even if it fails. -/
def writeText (file text : String) (fails : Bool) (written : Nat) : Except Unit Unit × String :=
  if fails then (.error (), file ++ String.ofList (text.toList.take written))
  else (.ok (), file ++ text)

/-- The effect of one operation. -/
def Act.exec : (a : Act) → World → Controller → Option a.Ans × Controller
  | .acquire l _, _, c => (some (c.poisoned l), c)
  | .release _, _, c => (some (), c)
  | .unwind guards, _, c => (none, guards.foldl Controller.poison c)
  | .op o, w, c =>
    ((Slonk.exec o w.toEnv c.shared).1, { c with shared := (Slonk.exec o w.toEnv c.shared).2 })
  | .status, _, c => (some c.shared.state.status, c)
  | .hasTarget, _, c => (some c.shared.toDash.hasTarget, c)
  | .setChannel, _, c =>
    (some (c.shared.toDash.setChannel (some [])).1,
      { c with shared.toDash := (c.shared.toDash.setChannel (some [])).2 })
  | .readAdc _ _, w, c => (some w.adcResult, c)
  | .lineCount, _, c => (some c.shared.driverLines.val.length, c)
  | .readLine driverIdx, w, c =>
    match c.shared.driverLines.val[driverIdx]? with
    | some value => (some (if w.lineReadFails then .error () else .ok value), c)
    | none => (some (.error ()), c)
  | .writeDriverLog readTime driverStates, w, c =>
    let (result, log) := writeText c.driverLog (driverLine readTime driverStates)
      w.driverLogFails w.written
    (some result, { c with driverLog := log })
  | .writeSensorLog file rows, w, c =>
    let (result, log) := writeText (c.sensorLogs file) (sensorLines rows)
      w.sensorLogFails w.written
    (some result, { c with sensorLogs := Function.update c.sensorLogs file log })
  | .heartbeat value, w, c =>
    if w.heartbeatFails then (some (.error ()), c) else (some (.ok ()), { c with heartbeatPin := value })
  | .spawnStop, _, c => (some (), c)
  | .accept, w, c => (some w.incoming, c)
  | .peerAddr, w, c => (some w.peerAddr, c)
  | .tryClone, w, c => (some w.tryClone, c)

/-- No operation changes the number of driver lines. -/
theorem length_exec (a : Act) (w : World) (c : Controller) :
    (a.exec w c).2.shared.driverLines.val.length = c.shared.driverLines.val.length := by
  cases a with
  | unwind guards =>
    exact Controller.foldl_poison (f := fun c => c.shared.driverLines.val.length)
      (fun _ l => by cases l <;> rfl) guards c
  | op o => exact (exec_lines o w.toEnv c.shared).1
  | readLine driverIdx =>
    simp only [Act.exec]
    split <;> rfl
  | heartbeat value =>
    simp only [Act.exec]
    split <;> rfl
  | _ => rfl

/-! ## 3. Locks around the operations -/

/-- `ControllerError`, as far as the threads of `run` return it. -/
inductive RunError
  | poison
  | console
  | outgoing (e : OutgoingError)
  | gpio
  | state (e : StateError)
  deriving DecidableEq, Repr

/-- A program of a thread. -/
abbrev Routine (ε α : Type) := Fallible Act Act.Ans ε α

/-- A panic, with these guards held. -/
def unwind {ε α : Type} (guards : List Lock) : Routine ε α :=
  ExceptT.mk (.op (.unwind guards) fun a => nomatch a)

/-- One operation of `Operations.lean`. -/
def perform (o : Op) : Prog Act Act.Ans o.Ans := .op (.op o) fun a => .ret a

/-- `UserLog::write`, called while these guards are held.  "we trust writing to the log buffer will
not cause a panic" -/
def writeLog (guards : List Lock) (level : LogLevel) (message : UserMessage) :
    Prog Act Act.Ans (Except Unit Unit) :=
  Prog.guarded (.acquire .userLog .exclusive) (fun poisoned =>
    if poisoned then .op (.unwind guards) fun a => nomatch a
    else perform (.userLog level message)) (.release .userLog)

/-- The warnings given in the body of `if let Err(e) = writeln!(log_file.lock()?, ..)`, where the
guard of the command log is a temporary that lives on. -/
def UserMessage.underCmdLog : UserMessage → Bool
  | .unableToLog _ | .unableToLogCompletion _ => true
  | _ => false

/-- The operations of `Operations.lean` with the locks they are performed under. -/
def critical : (o : Op) → Prog Act Act.Ans o.Ans
  | .moveTo newState =>
    Prog.guarded (.acquire .state .exclusive) (fun _ => perform (.moveTo newState)) (.release .state)
  | .sleep duration => perform (.sleep duration)
  | .now => perform .now
  | .write driverId value =>
    Prog.guarded (.acquire .driverLines .exclusive) (fun _ => perform (.write driverId value))
      (.release .driverLines)
  | .logCommand time tag cmd =>
    .op (.acquire .cmdLog .exclusive) fun _ =>
      (perform (.logCommand time tag cmd)).bind fun
        -- the guard stays for the warning
        | .error .io => .ret (.error .io)
        | r => .op (.release .cmdLog) fun _ => .ret r
  | .userLog level message =>
    if message.underCmdLog then
      (writeLog [.cmdLog] level message).bind fun r => .op (.release .cmdLog) fun _ => .ret r
    else writeLog [] level message
  | .send message =>
    Prog.guarded (.acquire .dashChannel .exclusive) (fun poisoned =>
      if poisoned then .ret (.error .poison)
      else Prog.guarded (.acquire .messageLog .exclusive) (fun _ => perform (.send message))
        (.release .messageLog)) (.release .dashChannel)
  | .spawn cmd => perform (.spawn cmd)

/-! ## 4. Which locks are nested -/

/-- The operations that are about a lock. -/
def Locks : Locking Act Lock where
  acquires
    | .acquire l mode => some (l, mode)
    | _ => none
  releases
    | .release l => some l
    | _ => none

/-- Which lock the source takes under which. -/
inductive Nests : Lock → Lock → Prop
  /-- `adc_guard.read(..)` -/
  | transfer (i : UInt8) : Nests (.adc i) .bus
  /-- the warnings of `sensor_listen` about a sensor -/
  | sensorWarning (i : UInt8) : Nests (.adc i) .userLog
  /-- the warnings of `driver_status_listen` about a driver -/
  | driverWarning : Nests .driverLines .userLog
  /-- the warning that a command could not be logged -/
  | commandWarning : Nests .cmdLog .userLog
  /-- `DashChannel::send` -/
  | send : Nests .dashChannel .messageLog

/-- The nestings of one more place: `driver_status_listen` calls `send` with the guard of the driver
lines held. -/
inductive NestsStatus : Lock → Lock → Prop
  | channel : NestsStatus .driverLines .dashChannel
  | log : NestsStatus .driverLines .messageLog

/-! ## 5. Sound locks -/

/-- The answers of an operation that meets no poisoned lock. -/
def Unpoisoned : (a : Act) → a.Ans → Prop
  | .acquire _ _, poisoned => poisoned = false
  | .op (.moveTo _), r => r ≠ .error .poison
  | .op (.write _ _), r => r ≠ .error .poisoned
  | .op (.logCommand _ _ _), r => r ≠ .error .poisoned
  | .op (.send _), r => r ≠ .error .poison
  | .status, r => ∃ state, r = .ok state
  | .hasTarget, r => ∃ b, r = .ok b
  | .setChannel, r => r = .ok ()
  | _, _ => True

/-- **Where no lock is poisoned, no operation says so.** -/
theorem unpoisoned_of_sound {c : Controller} (hc : c.Sound) {a : Act} {w : World} {x : a.Ans}
    (h : (a.exec w c).1 = some x) : Unpoisoned a x := by
  have hchannel : c.shared.toDash.dashChannel.poisoned = false := hc .dashChannel
  have hstate : c.shared.state.poisoned = false := hc .state
  cases a with
  | acquire l mode =>
    obtain rfl := Option.some.inj h
    exact hc l
  | status =>
    obtain rfl := Option.some.inj h
    exact ⟨c.shared.state.state, by simp [Guard.status, hstate]⟩
  | hasTarget =>
    obtain rfl := Option.some.inj h
    exact ⟨c.shared.toDash.dashChannel.val.isSome, by simp [DashChannel.hasTarget, hchannel]⟩
  | setChannel =>
    obtain rfl := Option.some.inj h
    simp [Unpoisoned, DashChannel.setChannel, hchannel]
  | op o =>
    cases o with
    | moveTo newState =>
      obtain rfl := Option.some.inj h
      simp only [Unpoisoned, Guard.moveTo, hstate, Bool.false_eq_true, if_false]
      split <;> simp
    | write driverId value =>
      rintro rfl
      have hlines : c.shared.driverLines.poisoned = false := hc .driverLines
      simp only [Act.exec, exec, hlines, Bool.false_eq_true, if_false, actuateDriver] at h
      split at h
      · rename_i heq
        simp only [Option.some.injEq] at h
        subst h
        split at heq <;> [split at heq; skip] <;> simp at heq
      · cases h
    | logCommand time tag cmd =>
      have hlog : c.shared.cmdLog.poisoned = false := hc .cmdLog
      simp only [Act.exec, exec, hlog, Bool.false_eq_true, if_false] at h
      split at h <;> obtain rfl := Option.some.inj h <;> simp [Unpoisoned]
    | send message =>
      have hlog : c.shared.toDash.messageLog.poisoned = false := hc .messageLog
      obtain rfl := Option.some.inj h
      simp only [Unpoisoned, DashChannel.send, hchannel, hlog, Bool.false_eq_true, if_false]
      split
      · simp
      · split
        · simp
        · split <;> simp
    | _ => trivial
  | _ => trivial

/-- **In a sound controller** the only operation that panics by itself is a write to a line that
does not exist. -/
theorem panics_of_sound {c : Controller} (hc : c.Sound) {a : Act} {w : World}
    (h : (a.exec w c).1 = none) : (∃ guards, a = .unwind guards) ∨
      ∃ driverId value, a = .op (.write driverId value) ∧
        c.shared.driverLines.val.length ≤ driverId.toNat := by
  have hlines : c.shared.driverLines.poisoned = false := hc .driverLines
  have hcmd : c.shared.cmdLog.poisoned = false := hc .cmdLog
  have huser : c.shared.userLog.poisoned = false := hc .userLog
  cases a with
  | unwind guards => exact Or.inl ⟨guards, rfl⟩
  | op o =>
    cases o with
    | write driverId value =>
      by_cases hlt : driverId.toNat < c.shared.driverLines.val.length
      · simp only [Act.exec, exec_write_of_lt hlines hlt] at h
        split at h <;> cases h
      · exact Or.inr ⟨driverId, value, rfl, Nat.not_lt.mp hlt⟩
    | userLog level message =>
      simp only [Act.exec, exec, huser, Bool.false_eq_true, if_false] at h
      split at h <;> cases h
    | logCommand time tag cmd =>
      simp only [Act.exec, exec, hcmd, Bool.false_eq_true, if_false] at h
      split at h <;> cases h
    | _ => cases h
  | readLine driverIdx =>
    simp only [Act.exec] at h
    split at h <;> cases h
  | heartbeat value =>
    simp only [Act.exec] at h
    split at h <;> cases h
  | _ => cases h

end Slonk
