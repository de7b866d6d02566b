/-
# The procedures

`execution.rs`, function by function, as programs over the atomic operations.  A program of
type `Proc ε α` returns an `α` or fails with an `ε`, and its sequencing is the `?` of the
source: the first failure is the result.

`handleCommand` runs one command of the dashboard, `ignition` and `emergencyStop` are the two
procedures, and `performActions` is the loop they share.  Nothing in that loop looks at the
guard: once entered, it runs until its list is done or a write fails.
-/
import Slonk.Operations

namespace Slonk

open Concurrency

/-- A program of the controller that may fail with an `ε`. -/
abbrev Proc (ε α : Type) := ExceptT ε (Prog Op Op.Ans) α

/-! ## 1. The operations, as the procedures call them -/

/-- `state.move_to(new_state)?` -/
def moveTo (newState : State) : Proc ExecutionError Unit :=
  ExceptT.mk <| .op (.moveTo newState) fun
    | .ok () => .ret (.ok ())
    | .error e => .ret (.error (.state e))

/-- `sleep(duration)` -/
def sleep (duration : Duration) : Proc ExecutionError Unit :=
  ExceptT.mk <| .op (.sleep duration) fun _ => .ret (.ok ())

/-- `SystemTime::now()` -/
def now : Proc ExecutionError Nat := ExceptT.mk <| .op .now fun time => .ret (.ok time)

/-- `driver_lines.lock().map_err(..)?[driver_id as usize].write(value).map_err(..)?`, which is
also what `actuate_driver` does under the lock its caller takes. -/
def write (driverId : UInt8) (value : Bool) : Proc ExecutionError Unit :=
  ExceptT.mk <| .op (.write driverId value) fun
    | .ok () => .ret (.ok ())
    | .error _ => .ret (.error .poison)

/-- `user_log.info(message)`, with the result dropped. -/
def info (message : UserMessage) : Proc ExecutionError Unit :=
  ExceptT.mk <| .op (.userLog .info message) fun _ => .ret (.ok ())

/-- Write a line to the command log.  A writer that fails is only worth a warning; a poisoned
lock is an error. -/
def logCommand (time : Nat) (tag : LogTag) (cmd : Command) : Proc ExecutionError Unit :=
  ExceptT.mk <| .op (.logCommand time tag cmd) fun
    | .ok () => .ret (.ok ())
    | .error .poisoned => .ret (.error .poison)
    | .error .io =>
      let message := match tag with
        | .request => UserMessage.unableToLog cmd
        | .finish => UserMessage.unableToLogCompletion cmd
      .op (.userLog .warn message) fun _ => .ret (.ok ())

/-! ## 2. The procedures -/

/-- `perform_actions`. -/
def performActions : List Action → Proc ExecutionError Unit
  | [] => pure ()
  | action :: rest => do
    match action with
    | .actuate driverId value => write driverId value
    | .sleep duration => sleep duration
    performActions rest

/-- `emergency_stop`. -/
def emergencyStop (config : Configuration) : Proc ExecutionError Unit := do
  -- "transition to EStop, and if it's already in EStopping, don't interfere"
  moveTo .eStopping
  performActions config.estopSequence
  -- "done doing the estop sequence, move back to standby"
  moveTo .standby

/-- `ignition`. -/
def ignition (config : Configuration) : Proc ExecutionError Unit := do
  moveTo .preIgnite
  sleep (Duration.fromMillis config.preIgniteTime)
  moveTo .ignite
  performActions config.ignitionSequence
  moveTo .postIgnite
  sleep (Duration.fromMillis config.postIgniteTime)
  -- "done doing the ignition sequence, move back to standby"
  moveTo .standby

/-- The `match cmd` in `handle_command`. -/
def execute (config : Configuration) : Command → Proc ExecutionError Unit
  | .actuate driverId value =>
    if driverId.toNat > config.drivers.length then
      -- "we were asked to actuate a non-existent driver"
      throw .driverOutOfBounds
    else write driverId value
  | .ignition => ignition config
  | .emergencyStop => emergencyStop config

/-- `handle_command`. -/
def handleCommand (config : Configuration) (cmd : Command) : Proc ExecutionError Unit := do
  let time ← now
  info (.executing cmd)
  logCommand time .request cmd
  execute config cmd
  let time ← now
  logCommand time .finish cmd

/-- The closure `handle_client` spawns for a command: both results are dropped. -/
def commandThread (config : Configuration) (cmd : Command) : Prog Op Op.Ans Unit :=
  (handleCommand config cmd).run.bind fun _ =>
    .op (.userLog .debug (.text "Finished executing command.")) fun _ => .ret ()

/-- The operations, and the thread that `spawn` starts. -/
def machine (config : Configuration) : Machine Op Op.Ans Shared Env where
  exec := exec
  fork
    | .spawn cmd => some (commandThread config cmd)
    | _ => none

@[simp] theorem machine_exec (config : Configuration) : (machine config).exec = exec := rfl

/-! ## 3. Sequencing, unfolded -/

/-- What follows a step of a procedure: the rest if it succeeded, its error otherwise. -/
def thenRun {ε α β : Type} (f : α → Proc ε β) : Except ε α → Prog Op Op.Ans (Except ε β)
  | .ok a => (f a).run
  | .error e => .ret (.error e)

@[simp] theorem thenRun_ok {ε α β : Type} (f : α → Proc ε β) (a : α) :
    thenRun f (.ok a) = (f a).run := rfl

@[simp] theorem thenRun_error {ε α β : Type} (f : α → Proc ε β) (e : ε) :
    thenRun f (.error e) = .ret (.error e) := rfl

/-- `?` is sequencing of programs. -/
theorem run_bind {ε α β : Type} (p : Proc ε α) (f : α → Proc ε β) :
    (p >>= f).run = p.run.bind (thenRun f) := rfl

/-! ## 4. What a call did -/

/-- The state a call has moved the guard to, if it did. -/
def moved : Call Op.Ans → Option State
  | ⟨.moveTo newState, some (.ok ())⟩ => some newState
  | _ => none

theorem op_of_moved {c : Call Op.Ans} {newState : State} (h : moved c = some newState) :
    c.op = .moveTo newState := by
  obtain ⟨o, a⟩ := c
  unfold moved at h
  split at h
  · rename_i heq
    cases heq
    exact congrArg Op.moveTo (Option.some.inj h)
  · cases h

/-- The driver write a call has made, if it did: the pin was there and its `write` was called,
whether or not that succeeded. -/
def wrote : Call Op.Ans → Option (UInt8 × Bool)
  | ⟨.write driverId value, some (.ok ())⟩ => some (driverId, value)
  | ⟨.write driverId value, some (.error .gpio)⟩ => some (driverId, value)
  | _ => none

/-- The writes a sequence of actions asks for. -/
def actuations (actions : List Action) : List (UInt8 × Bool) :=
  actions.filterMap fun
    | .actuate driverId value => some (driverId, value)
    | .sleep _ => none

@[simp] theorem actuations_nil : actuations [] = [] := rfl

@[simp] theorem actuations_actuate (driverId : UInt8) (value : Bool) (rest : List Action) :
    actuations (.actuate driverId value :: rest) = (driverId, value) :: actuations rest := rfl

@[simp] theorem actuations_sleep (duration : Duration) (rest : List Action) :
    actuations (.sleep duration :: rest) = actuations rest := rfl

theorem mem_actuations {actions : List Action} {driverId : UInt8} {value : Bool} :
    (driverId, value) ∈ actuations actions ↔ .actuate driverId value ∈ actions := by
  induction actions with
  | nil => simp
  | cons action rest ih =>
    cases action with
    | actuate d v => simp [ih]
    | sleep d => simp [ih]

end Slonk
