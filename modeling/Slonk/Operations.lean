/-
# The shared state and its atomic operations

What the controller's threads share, and the operations they perform on it.  An operation is
one critical section of the source, from taking a lock to releasing it, or one call that shares
nothing (`sleep`, reading the clock, spawning a thread); it is atomic because the lock is held
throughout.

`Env` is what the outside world decides when an operation runs: the clock, and which device
fails.  A GPIO write that fails leaves the line as it was; a write to the command log that fails
leaves some of the line in the file.  The clock is at or after the UNIX epoch, as the controller's
documentation requires, the terminal can be written to, and a thread can always be started;
`Host.lean` does without.

On such a host the one operation that can panic while it holds a lock is `write`: it indexes the
driver lines with the identifier it is given.  Out of bounds, the thread dies and the mutex is
poisoned.
-/
import Slonk.Concurrency.Solo
import Slonk.State
import Slonk.Incoming
import Slonk.Outgoing
import Slonk.Spi

namespace Slonk

open Concurrency

/-! ## 1. Errors and log messages -/

/-- `execution::Error`. -/
inductive ExecutionError
  | poison
  | driverOutOfBounds
  | state (e : StateError)
  deriving DecidableEq, Repr

/-- `LogLevel`. -/
inductive LogLevel
  | debug
  | info
  | warn
  | critical
  deriving DecidableEq, Repr

/-- The messages of the user log, each with the data it is formatted from. -/
inductive UserMessage
  /-- a fixed text -/
  | text (s : String)
  /-- "Executing command {cmd:?}" -/
  | executing (cmd : Command)
  /-- "Unable to log command {cmd} to log file: {e:?}" -/
  | unableToLog (cmd : Command)
  /-- "Unable to log completion of command {cmd} to log file: {e:?}" -/
  | unableToLogCompletion (cmd : Command)
  /-- "Received malformed command: {}. Future commands will likely also be invalid" -/
  | malformedCommand (message : List UInt8)
  /-- "Encountered I/O error while parsing message: {e:?}" -/
  | parseIoError (kind : ErrorKind)
  /-- "Encountered error while executing command: {e:?}" -/
  | commandError (e : ExecutionError)
  /-- "unable to acquire mutex on sensor ADC for {} due to poisoning" -/
  | adcPoisoned (label : String)
  /-- "unable to read {} due to error: {adc_read_result:?}" -/
  | unreadableSensor (label : String) (e : Spi.Error)
  /-- "Sensor {} was out of bounds with value {rolling_avg}, attempting emergency stop" -/
  | outOfBounds (label value : String)
  /-- "unable to write data for sensor {}: {e:?}" -/
  | unwrittenSensor (label : String)
  /-- "Unable to read state of driver {driver_idx}: {e:?}" -/
  | unreadableDriver (driverIdx : Nat)
  /-- "failed to collect incoming client: {e}" -/
  | failedClient (e : ErrorKind)
  /-- "Accepted client {:?}" -/
  | acceptedClient (address : String)
  deriving DecidableEq, Repr

/-- The two kinds of lines in the command log. -/
inductive LogTag
  | request
  | finish
  deriving DecidableEq, Repr

/-- A line of the command log: "{time},request,{cmd}" or "{time},finish,{cmd}", and its end. -/
def commandLine (time : Nat) (tag : LogTag) (cmd : Command) : String :=
  match tag with
  | .request => s!"{time},request,{cmd.display}\n"
  | .finish => s!"{time},finish,{cmd.display}\n"

/-- Why a command could not be logged: the lock, or the writer. -/
inductive LogError
  | poisoned
  | io
  deriving DecidableEq, Repr

/-- Why a line could not be written: the lock, or the pin. -/
inductive LineError
  | poisoned
  | gpio
  deriving DecidableEq, Repr

/-! ## 2. The shared state -/

/-- What the outside world decides when an operation runs. -/
structure Env where
  now : Nat
  pinFails : Bool
  cmdLogFails : Bool
  userLogFails : Bool
  chanFails : Bool
  messageLogFails : Bool
  /-- how much of a text is in the file when writing it fails -/
  written : Nat
  deriving DecidableEq, Repr

/-- Nothing fails. -/
def Env.fine : Env := ⟨0, false, false, false, false, false, 0⟩

/-- The state shared by the threads of the controller.  The level of each driver line is what
was last written to it; the command log is the text in its file, and the user log the entries that
are in its buffer as a whole. -/
structure Shared where
  state : Guard
  driverLines : Locked (List Bool)
  cmdLog : Locked String
  userLog : Locked (List (Nat × LogLevel × UserMessage))
  toDash : DashChannel
  deriving DecidableEq, Repr

/-- The shared state as `run` sets it up, over driver lines at the levels `lines`. -/
def Shared.new (lines : List Bool) : Shared :=
  ⟨Guard.new .standby, Locked.new lines, Locked.new "", Locked.new [], DashChannel.new⟩

/-! ## 3. The operations -/

/-- The atomic operations. -/
inductive Op
  /-- `state.move_to(new_state)` -/
  | moveTo (newState : State)
  /-- `sleep(duration)` -/
  | sleep (duration : Duration)
  /-- `SystemTime::now()`, as nanoseconds since the UNIX epoch -/
  | now
  /-- `driver_lines.lock()?[driver_id as usize].write(value)` -/
  | write (driverId : UInt8) (value : Bool)
  /-- `writeln!(log_file.lock()?, "{},request,{cmd}", time)` -/
  | logCommand (time : Nat) (tag : LogTag) (cmd : Command)
  /-- `user_log.info(message)` and its siblings -/
  | userLog (level : LogLevel) (message : UserMessage)
  /-- `to_dash.send(message)` -/
  | send (message : Message)
  /-- `thread_scope.spawn(..)` of a thread that handles `cmd` -/
  | spawn (cmd : Command)
  deriving DecidableEq

/-- What an operation answers. -/
@[reducible] def Op.Ans : Op → Type
  | .moveTo _ => Except StateError Unit
  | .sleep _ => Unit
  | .now => Nat
  | .write _ _ => Except LineError Unit
  | .logCommand _ _ _ => Except LogError Unit
  | .userLog _ _ => Except Unit Unit
  | .send _ => Except OutgoingError Unit
  | .spawn _ => Unit

/-- `driver_lines[driver_id as usize].write(value)`; `none` is the panic of an index out of
bounds. -/
def actuateDriver (driverLines : List Bool) (driverId : UInt8) (value pinFails : Bool) :
    Option (Except LineError Unit × List Bool) :=
  if driverId.toNat < driverLines.length then
    if pinFails then some (.error .gpio, driverLines)
    else some (.ok (), driverLines.set driverId.toNat value)
  else none

/-- The effect of one operation: its answer, `none` if it panics, and the state it leaves. -/
def exec : (o : Op) → Env → Shared → Option o.Ans × Shared
  | .moveTo newState, _, s =>
    (some (s.state.moveTo newState).1, { s with state := (s.state.moveTo newState).2 })
  | .sleep _, _, s => (some (), s)
  | .now, env, s => (some env.now, s)
  | .write driverId value, env, s =>
    if s.driverLines.poisoned then (some (.error .poisoned), s)
    else match actuateDriver s.driverLines.val driverId value env.pinFails with
      | some (result, lines) => (some result, { s with driverLines.val := lines })
      | none => (none, { s with driverLines.poisoned := true })
  | .logCommand time tag cmd, env, s =>
    if s.cmdLog.poisoned then (some (.error .poisoned), s)
    else if env.cmdLogFails then
      (some (.error .io), { s with cmdLog.val :=
        s.cmdLog.val ++ String.ofList ((commandLine time tag cmd).toList.take env.written) })
    else (some (.ok ()), { s with cmdLog.val := s.cmdLog.val ++ commandLine time tag cmd })
  | .userLog level message, env, s =>
    -- "we trust writing to the log buffer will not cause a panic"; nor does the `print!` before it,
    -- on a terminal that can be written to
    if s.userLog.poisoned then (none, s)
    else if env.userLogFails then (some (.error ()), s)
    else (some (.ok ()), { s with userLog.val := s.userLog.val ++ [(env.now, level, message)] })
  | .send message, env, s =>
    (some (s.toDash.send message env.now env.chanFails env.messageLogFails).1,
      { s with toDash := (s.toDash.send message env.now env.chanFails env.messageLogFails).2 })
  | .spawn _, _, s => (some (), s)

/-! ## 4. What the operations leave alone -/

/-- Only `moveTo` changes the guard. -/
theorem exec_state {o : Op} (h : ∀ newState, o ≠ .moveTo newState) (env : Env) (s : Shared) :
    (exec o env s).2.state = s.state := by
  cases o with
  | moveTo newState => exact absurd rfl (h newState)
  | sleep d => rfl
  | now => rfl
  | spawn cmd => rfl
  | send m => rfl
  | write driverId value =>
    simp only [exec]
    split
    · rfl
    · split <;> rfl
  | logCommand time tag cmd =>
    simp only [exec]
    split
    · rfl
    · split <;> rfl
  | userLog level message =>
    simp only [exec]
    split
    · rfl
    · split <;> rfl

/-- Only `write` changes the driver lines. -/
theorem exec_driverLines {o : Op} (h : ∀ driverId value, o ≠ .write driverId value) (env : Env)
    (s : Shared) : (exec o env s).2.driverLines = s.driverLines := by
  cases o with
  | write driverId value => exact absurd rfl (h driverId value)
  | moveTo newState => rfl
  | sleep d => rfl
  | now => rfl
  | spawn cmd => rfl
  | send m => rfl
  | logCommand time tag cmd =>
    simp only [exec]
    split
    · rfl
    · split <;> rfl
  | userLog level message =>
    simp only [exec]
    split
    · rfl
    · split <;> rfl

/-- Only `send` changes the channel to the dashboard and its log. -/
theorem exec_toDash {o : Op} (h : ∀ message, o ≠ .send message) (env : Env) (s : Shared) :
    (exec o env s).2.toDash = s.toDash := by
  cases o with
  | send message => exact absurd rfl (h message)
  | moveTo newState => rfl
  | sleep d => rfl
  | now => rfl
  | spawn cmd => rfl
  | write driverId value =>
    simp only [exec]
    split
    · rfl
    · split <;> rfl
  | logCommand time tag cmd =>
    simp only [exec]
    split
    · rfl
    · split <;> rfl
  | userLog level message =>
    simp only [exec]
    split
    · rfl
    · split <;> rfl

theorem actuateDriver_of_lt {driverLines : List Bool} {driverId : UInt8}
    (h : driverId.toNat < driverLines.length) (value pinFails : Bool) :
    actuateDriver driverLines driverId value pinFails =
      some (if pinFails then (.error .gpio, driverLines)
        else (.ok (), driverLines.set driverId.toNat value)) := by
  unfold actuateDriver
  rw [if_pos h]
  cases pinFails <;> rfl

/-- **A write in range** of an unpoisoned mutex answers, and the line follows the answer. -/
theorem exec_write_of_lt {s : Shared} (hp : s.driverLines.poisoned = false) {driverId : UInt8}
    (h : driverId.toNat < s.driverLines.val.length) (value : Bool) (env : Env) :
    exec (.write driverId value) env s =
      if env.pinFails then (some (.error .gpio), s)
      else (some (.ok ()),
        { s with driverLines.val := s.driverLines.val.set driverId.toNat value }) := by
  obtain ⟨state, ⟨lines, poisoned⟩, cmdLog, userLog, toDash⟩ := s
  obtain rfl : poisoned = false := hp
  simp only [exec, Bool.false_eq_true, if_false, actuateDriver_of_lt h]
  cases env.pinFails <;> rfl

/-- **A write out of range** kills the thread and poisons the mutex. -/
theorem exec_write_of_ge {s : Shared} (hp : s.driverLines.poisoned = false) {driverId : UInt8}
    (h : s.driverLines.val.length ≤ driverId.toNat) (value : Bool) (env : Env) :
    exec (.write driverId value) env s =
      (none, { s with driverLines.poisoned := true }) := by
  simp only [exec, hp, Bool.false_eq_true, if_false, actuateDriver, if_neg (Nat.not_lt.mpr h)]

theorem exec_write_of_poisoned {s : Shared} (hp : s.driverLines.poisoned = true)
    (driverId : UInt8) (value : Bool) (env : Env) :
    exec (.write driverId value) env s = (some (.error .poisoned), s) := by
  simp only [exec, hp, if_true]

/-! ## 5. Healthy states -/

/-- No lock is poisoned, and there are `n` driver lines. -/
structure Healthy (n : Nat) (s : Shared) : Prop where
  length : s.driverLines.val.length = n
  state : s.state.poisoned = false
  driverLines : s.driverLines.poisoned = false
  cmdLog : s.cmdLog.poisoned = false
  userLog : s.userLog.poisoned = false
  dashChannel : s.toDash.dashChannel.poisoned = false
  messageLog : s.toDash.messageLog.poisoned = false

theorem healthy_new (lines : List Bool) : Healthy lines.length (Shared.new lines) :=
  ⟨rfl, rfl, rfl, rfl, rfl, rfl, rfl⟩

/-- The operation does not index beyond `n` driver lines. -/
def InRange (n : Nat) : Op → Prop
  | .write driverId _ => driverId.toNat < n
  | _ => True

/-- **An operation in range answers and keeps the state healthy.** -/
theorem exec_healthy {n : Nat} {o : Op} {s : Shared} (env : Env) (ho : InRange n o)
    (hs : Healthy n s) : (exec o env s).1 ≠ none ∧ Healthy n (exec o env s).2 := by
  cases o with
  | sleep d => exact ⟨nofun, hs⟩
  | now => exact ⟨nofun, hs⟩
  | spawn cmd => exact ⟨nofun, hs⟩
  | moveTo newState =>
    exact ⟨nofun, { hs with state := (Guard.moveTo_poisoned _ _).trans hs.state }⟩
  | send m =>
    obtain ⟨hc, hm⟩ := s.toDash.send_poisoned m env.now env.chanFails env.messageLogFails
    exact ⟨nofun, { hs with
      dashChannel := hc.trans hs.dashChannel, messageLog := hm.trans hs.messageLog }⟩
  | write driverId value =>
    have hlt : driverId.toNat < s.driverLines.val.length := by rw [hs.length]; exact ho
    rw [exec_write_of_lt hs.driverLines hlt]
    split
    · exact ⟨nofun, hs⟩
    · exact ⟨nofun, { hs with length := by rw [List.length_set]; exact hs.length }⟩
  | logCommand time tag cmd =>
    simp only [exec, hs.cmdLog, Bool.false_eq_true, if_false]
    split
    · exact ⟨nofun, { hs with cmdLog := rfl }⟩
    · exact ⟨nofun, { hs with cmdLog := rfl }⟩
  | userLog level message =>
    simp only [exec, hs.userLog, Bool.false_eq_true, if_false]
    split
    · exact ⟨nofun, hs⟩
    · exact ⟨nofun, { hs with userLog := rfl }⟩

end Slonk
