/-
# The threads of the controller

The bodies of the threads `run` starts, over the operations of `Controller.lean`: `sensor_listen`
and `driver_status_listen` of `data.rs`, `heartbeat`, and the loop in `run` that accepts clients.
The threads that are started on the way, one for each command and one for each sensor found out of
its range, run the programs of `Execution.lean`.

A guard is the block between `acquire` and `release` (`Fallible.guarded`), so what is inside the
block happens with the lock held.  Each loop is run for a given number of turns; a thread that is
still in its loop after the last one returns `Exit.running`, which no code of the source does, and
there is no bound on the number.
-/
import Slonk.Controller

namespace Slonk

open Concurrency

/-- How a loop over `while state.status()? != State::Quit` ended. -/
inductive Exit
  /-- "we are now quitting" -/
  | quit
  /-- It has not, after the turns it was given. -/
  | running
  deriving DecidableEq, Repr

def Exit.ofTurns {α : Type} : α ⊕ Unit → Exit
  | .inl _ => .running
  | .inr () => .quit

namespace Routine

/-! ## 1. What the threads call -/

/-- `state.status()?` -/
def status : Routine RunError State :=
  .guarded (.acquire .state .shared)
    (fun _ => .attempt .status fun r => r.mapError .state) (.release .state)

/-- `SystemTime::now()` -/
def now : Routine RunError Nat := .call (Act.op .now)

/-- `sleep(duration)` -/
def sleep (duration : Duration) : Routine RunError Unit := .call (Act.op (.sleep duration))

/-- `user_log.warn(message)?` and its siblings. -/
def log (guards : List Lock) (level : LogLevel) (message : UserMessage) : Routine RunError Unit :=
  ExceptT.mk <| (writeLog guards level message).bind fun r => .ret (r.mapError fun _ => .console)

/-- `user_log.warn(message)` and its siblings, with the result dropped. -/
def note (guards : List Lock) (level : LogLevel) (message : UserMessage) : Routine RunError Unit :=
  ExceptT.mk <| (writeLog guards level message).bind fun _ => .ret (.ok ())

/-- `dashboard_stream.send(message)?` -/
def send (message : Message) : Routine RunError Unit :=
  ExceptT.mk <| (critical (.send message)).bind fun r => .ret (r.mapError .outgoing)

/-- `dashboard_stream.has_target()?` -/
def hasTarget : Routine RunError Bool :=
  .guarded (.acquire .dashChannel .shared)
    (fun _ => .attempt .hasTarget fun r => r.mapError fun _ => .poison) (.release .dashChannel)

/-- `to_dash.set_channel(Some(..))?` -/
def setChannel : Routine RunError Unit :=
  .guarded (.acquire .dashChannel .exclusive)
    (fun _ => .attempt .setChannel fun r => r.mapError fun _ => .poison) (.release .dashChannel)

end Routine

open Routine

/-! ## 2. `sensor_listen` -/

/-- The variables of `sensor_listen`. -/
structure Locals (F : Type) (n : Nat) where
  lastTransmissionTime : Nat
  transmissionReadings : Vector (Option (Nat × UInt16)) n
  mostRecentReadings : Vector (List (Nat × UInt16 × F)) n
  rollingAverages : Vector F n

section SensorListen

variable {F : Type} [F64 F] (config : Configuration) (profile : Profile) (group : SensorGroup)

/-- The variables before the loop. -/
def Locals.start (time : Nat) : Locals F group.size :=
  ⟨time, Vector.replicate _ none, Vector.replicate _ [], group.seeds⟩

/-- `adc_guard.read(sensor.channel)` -/
def readAdc (sensor : Sensor) : Routine RunError (Except Spi.Error UInt16) :=
  -- `assert!((0..8).contains(&channel))`
  if sensor.channel ≥ 8 then unwind [.adc sensor.adc]
  else .guarded (.acquire .bus .exclusive) (fun poisoned =>
    if poisoned then pure (.error .poison) else .call (Act.readAdc sensor.adc sensor.channel))
    (.release .bus)

/-- `most_recent_readings[idx].push_back(..)` and `transmission_readings[idx] = Some(..)` -/
def Locals.record {n : Nat} (locals : Locals F n) (idx : Fin n) (readTime : Nat) (reading : UInt16)
    (calibratedValue : F) : Locals F n :=
  { locals with
    mostRecentReadings := locals.mostRecentReadings.set idx
      (locals.mostRecentReadings.get idx ++ [(readTime, reading, calibratedValue)]) idx.isLt
    transmissionReadings :=
      locals.transmissionReadings.set idx (some (readTime, reading)) idx.isLt }

/-- "if rolling average went out of bounds, immediately start emergency stopping" -/
def checkRange (sensor : Sensor) (rollingAvg : F) : Routine RunError Unit :=
  if sensor.outOfBounds rollingAvg then do
    note [.adc sensor.adc] .warn (.outOfBounds sensor.label (F64.display rollingAvg))
    .call Act.spawnStop
  else pure ()

/-- The turn of the loop over the sensors, from the reading on. -/
def sampleLocked (idx : Fin group.size) (locals : Locals F group.size) :
    Routine RunError (Locals F group.size) := do
  let sensor := group.sensor idx
  match ← readAdc sensor with
  | .error e =>
    note [.adc sensor.adc] .warn (.unreadableSensor sensor.label e)
    pure locals
  | .ok reading =>
    let readTime ← Routine.now
    let calibratedValue : F := sensor.calibrate reading
    let locals := locals.record idx readTime reading calibratedValue
    -- "update rolling averages"
    match (sensor.rollingAvg profile (locals.rollingAverages.get idx) calibratedValue).value with
    | none => unwind [.adc sensor.adc]
    | some rollingAvg =>
      checkRange sensor rollingAvg
      pure { locals with rollingAverages := setAverage locals.rollingAverages idx rollingAvg }

/-- The turn of the loop over the sensors. -/
def sample (locals : Locals F group.size) (idx : Fin group.size) :
    Routine RunError (Locals F group.size) := do
  let sensor := group.sensor idx
  let sampled ← .guarded (.acquire (.adc sensor.adc) .exclusive) (fun poisoned =>
    if poisoned then pure none
    else do
      let locals ← sampleLocked profile group idx locals
      pure (some locals)) (.release (.adc sensor.adc))
  match sampled with
  | some locals => pure locals
  | none =>
    note [] .critical (.adcPoisoned sensor.label)
    pure locals

/-- The readings of a `SensorValue` message. -/
def Locals.readings {n : Nat} (locals : Locals F n) : List SensorReading :=
  (List.finRange n).filterMap fun idx =>
    (locals.transmissionReadings.get idx).map fun (time, reading) =>
      ⟨UInt8.ofNat idx, reading, time⟩

/-- "transmit data to the dashboard if it's been long enough since our last transmission" -/
def transmit (groupId : UInt8) (transmissionPeriod : Duration) (locals : Locals F group.size) :
    Routine RunError (Locals F group.size) := do
  if (← Routine.now) > locals.lastTransmissionTime + transmissionPeriod then
    if ← hasTarget then Routine.send (.sensorValue groupId locals.readings)
    let time ← Routine.now
    pure { locals with
      lastTransmissionTime := time, transmissionReadings := Vector.replicate _ none }
  else pure locals

/-- "{time},{reading},{calib}" -/
def sensorRow : Nat × UInt16 × F → String
  | (time, reading, calib) => s!"{time},{reading},{F64.display calib}"

/-- `reading_queue.clear()` -/
def Locals.clear {n : Nat} (locals : Locals F n) (idx : Fin n) : Locals F n :=
  { locals with mostRecentReadings := locals.mostRecentReadings.set idx [] idx.isLt }

/-- The turn of the loop over the queues. -/
def flush (logFiles : List LogFile) (locals : Locals F group.size) (idx : Fin group.size) :
    Routine RunError (Locals F group.size) := do
  let queue := locals.mostRecentReadings.get idx
  if queue.length ≥ config.logBufferSize then
    match logFiles[idx.val]? with
    | none => .abort
    | some file =>
      match ← Fallible.call (Act.writeSensorLog file (queue.map sensorRow)) with
      | .error () => note [] .warn (.unwrittenSensor (group.sensor idx).label)
      | .ok () => pure ()
      pure (locals.clear idx)
  else pure locals

/-- One turn of the loop of `sensor_listen`. -/
def sensorTurn (groupId : UInt8) (logFiles : List LogFile) (periods : Periods)
    (locals : Locals F group.size) : Routine RunError (Locals F group.size ⊕ Unit) := do
  if (← status) = .quit then pure (.inr ())
  else
    let locals ← (List.finRange group.size).foldlM (sample profile group) locals
    let locals ← transmit group groupId periods.transmission locals
    let locals ← (List.finRange group.size).foldlM (flush config group logFiles) locals
    let sleepTime := match ← status with
      | .standby => periods.standby
      | _ => periods.ignition
    Routine.sleep sleepTime
    pure (.inl locals)

variable (F)

/-- `sensor_listen`.  Of the log files it is given, the `i`-th is that of the `i`-th sensor. -/
def sensorListen (groupId : UInt8) (logFiles : List LogFile) (turns : Nat) :
    Routine RunError Exit :=
  match config.sensorGroups[groupId.toNat]? with
  | none => .abort
  | some group => do
    let time ← Routine.now
    match group.periods.value with
    | none => .abort
    | some periods =>
      let r ← Fallible.loop (sensorTurn config profile group groupId logFiles periods) turns
        (Locals.start group time : Locals F group.size)
      pure (.ofTurns r)

end SensorListen

/-! ## 3. `driver_status_listen` -/

/-- The loop over the lines: a line that cannot be read keeps the state it had. -/
def readDrivers (driverStates : List Bool) : Routine RunError (List Bool) :=
  (List.range driverStates.length).foldlM (fun driverStates driverIdx => do
    match ← Fallible.call (Act.readLine driverIdx) with
    | .ok readValue => pure (driverStates.set driverIdx readValue)
    | .error () =>
      log [.driverLines] .warn (.unreadableDriver driverIdx)
      pure driverStates) driverStates

/-- What `driver_status_listen` does with the guard of the driver lines. -/
def statusLocked (readTime : Nat) (driverStates : List Bool) : Routine RunError (List Bool) := do
  let driverStates ← readDrivers driverStates
  -- "write driver status information"
  .attempt (.writeDriverLog readTime driverStates) fun r => r.mapError fun _ => .console
  -- "optionally transmit to dashboard"
  Routine.send (.driverValue driverStates)
  pure driverStates

/-- One turn of the loop of `driver_status_listen`. -/
def statusTurn (sleepTime : Duration) (driverStates : List Bool) :
    Routine RunError (List Bool ⊕ Unit) := do
  if (← status) = .quit then pure (.inr ())
  else
    let readTime ← Routine.now
    let driverStates ← .guarded (.acquire .driverLines .exclusive) (fun poisoned =>
      if poisoned then do
        note [.driverLines] .critical (.text "Unable to acquire lock over driver mutex")
        throw .poison
      else statusLocked readTime driverStates) (.release .driverLines)
    Routine.sleep sleepTime
    pure (.inl driverStates)

/-- `driver_status_listen`. -/
def driverStatusListen (config : Configuration) (turns : Nat) : Routine RunError Exit :=
  match config.statusPeriod.value with
  | none => .abort
  | some sleepTime => do
    let count ← .guarded (.acquire .driverLines .exclusive) (fun poisoned =>
      if poisoned then throw .poison else .call Act.lineCount) (.release .driverLines)
    let r ← Fallible.loop (statusTurn sleepTime) turns (List.replicate count false)
    pure (.ofTurns r)

/-! ## 4. `heartbeat` -/

/-- `pin.write(value)?`, and the pause after it. -/
def beat (value : Bool) (millis : UInt32) : Routine RunError Unit := do
  .attempt (.heartbeat value) fun r => r.mapError fun _ => .gpio
  Routine.sleep (Duration.fromMillis millis)

/-- One turn of the loop of `heartbeat`. -/
def heartbeatTurn (_ : Unit) : Routine RunError (Unit ⊕ Unit) := do
  if (← status) = .quit then pure (.inr ())
  else
    beat true 50
    beat false 50
    beat true 50
    beat false 850
    pure (.inl ())

/-- `heartbeat`. -/
def heartbeat (turns : Nat) : Routine RunError Exit := do
  let r ← Fallible.loop heartbeatTurn turns ()
  pure (.ofTurns r)

/-! ## 5. The accept loop of `run` -/

section Accepting

variable (config : Configuration) (profile : Profile) (fromSlice : List UInt8 → Option Command)

/-- The call of `handle_client`: "keep the port open even in error cases". -/
def serve (src : Source) : Routine RunError Unit :=
  ExceptT.mk <| ((handleClient config profile fromSlice src).run.expand critical).bind fun _ =>
    .ret (.ok ())

/-- The part of a turn after the stream has been cloned. -/
def install (src : Source) : Routine RunError Unit := do
  setChannel
  log [] .debug (.text "Overwrote to dashboard lock, now reading commands")
  serve config profile fromSlice src

/-- One turn of the loop over `listener.incoming()`, which has no last element. -/
def acceptTurn (_ : Unit) : Routine RunError (Unit ⊕ Empty) := do
  match ← Fallible.call Act.accept with
  | .error e =>
    log [] .warn (.failedClient e)
    pure (.inl ())
  | .ok src =>
    let address ← .attempt .peerAddr fun r => r.mapError fun _ => .console
    log [] .info (.acceptedClient address)
    .attempt .tryClone fun r => r.mapError fun _ => .console
    install config profile fromSlice src
    pure (.inl ())

/-- The accept loop. -/
def accepting (turns : Nat) : Routine RunError (Unit ⊕ Empty) :=
  .loop (acceptTurn config profile fromSlice) turns ()

end Accepting

/-! ## 6. The system -/

/-- The kinds of threads, each with the number of turns its loop is run for. -/
inductive Thread
  | accepting (turns : Nat)
  | sensorListen (groupId : UInt8) (logFiles : List LogFile) (turns : Nat)
  | driverStatusListen (turns : Nat)
  | heartbeat (turns : Nat)
  | handleCommand (cmd : Command)
  | emergencyStop
  deriving DecidableEq, Repr

section Controller

variable (F : Type) [F64 F] (config : Configuration) (profile : Profile)
  (fromSlice : List UInt8 → Option Command)

/-- The thread that handles a command. -/
def commandRoutine (cmd : Command) : Prog Act Act.Ans Unit :=
  (commandThread config cmd).expand critical

/-- The thread `sensor_listen` spawns. -/
def stopRoutine : Prog Act Act.Ans Unit := (emergencyStop config).run.discard.expand critical

/-- What a thread runs.  The scope drops what it returns. -/
def Thread.program : Thread → Prog Act Act.Ans Unit
  | .accepting turns => (Slonk.accepting config profile fromSlice turns).run.discard
  | .sensorListen groupId logFiles turns =>
    (Slonk.sensorListen F config profile groupId logFiles turns).run.discard
  | .driverStatusListen turns => (Slonk.driverStatusListen config turns).run.discard
  | .heartbeat turns => (Slonk.heartbeat turns).run.discard
  | .handleCommand cmd => commandRoutine config cmd
  | .emergencyStop => stopRoutine config

/-- The operations and the threads they start. -/
def controller : Machine Act Act.Ans Controller World where
  exec := Act.exec
  fork
    | .op (.spawn cmd) => some (commandRoutine config cmd)
    | .spawnStop => some (stopRoutine config)
    | _ => none

variable {config} in
/-- **What is started** handles a command, or stops the engine. -/
theorem controller_fork {a : Act} {p : Prog Act Act.Ans Unit}
    (h : (controller config).fork a = some p) :
    (∃ cmd, p = commandRoutine config cmd) ∨ p = stopRoutine config := by
  cases a with
  | op o =>
    cases o with
    | spawn cmd => exact Or.inl ⟨cmd, (Option.some.inj h).symm⟩
    | _ => cases h
  | spawnStop => exact Or.inr (Option.some.inj h).symm
  | _ => cases h

/-- The controller with these threads. -/
def controllerOf (threads : List Thread) (c : Controller) : Sys Act Act.Ans Controller :=
  ⟨c, threads.map (Thread.program F config profile fromSlice)⟩

/-- A run of the controller, each step of which takes only a lock that is free, and meets `G`. -/
def ControllerRun (G : List (Event Act.Ans) → Sys Act Act.Ans Controller → Event Act.Ans → Prop)
    (threads : List Thread) (c : Controller) (t : List (Event Act.Ans))
    (s : Sys Act Act.Ans Controller) : Prop :=
  GuardedRun (controller config) (fun t s e => Locks.Grants t s e ∧ G t s e)
    (controllerOf F config profile fromSlice threads c) t s

variable {F config profile fromSlice} {G : List (Event Act.Ans) → Sys Act Act.Ans Controller →
  Event Act.Ans → Prop} {threads : List Thread} {c : Controller} {t : List (Event Act.Ans)}
  {s : Sys Act Act.Ans Controller}

/-- **What is left of a thread of the run** is what its calls left of its program. -/
theorem ControllerRun.routine (hrun : ControllerRun F config profile fromSlice G threads c t s)
    {i : Nat} {thread : Thread} (hi : threads[i]? = some thread) {α : Type}
    {r : Routine RunError α} (hr : thread.program F config profile fromSlice = r.run.discard) :
    ∃ p, s.threads[i]? = some p.discard ∧ Prog.Steps r.run (history i t) p := by
  have hp : (controllerOf F config profile fromSlice threads c).threads[i]?
      = some r.run.discard := by
    simp [controllerOf, hi, hr]
  obtain ⟨q, hq, hrest⟩ := GuardedRun.run hrun |>.steps hp
  obtain ⟨p, hsteps, rfl⟩ := hrest.of_discard
  exact ⟨p, hq, hsteps⟩

/-- **In a run that meets no poisoned lock** no operation answers that a lock is poisoned, and what
panics is a panic of the program, or a write to a line that does not exist. -/
theorem ControllerRun.sound (hrun : ControllerRun F config profile fromSlice G threads c t s)
    (hG : ∀ t s e, G t s e → s.shared.Sound) : ∀ e ∈ t,
      (∀ x, e.call.ans = some x → Unpoisoned e.call.op x) ∧ (e.call.ans = none →
        (∃ guards, e.call.op = .unwind guards) ∨
          ∃ driverId value, e.call.op = .op (.write driverId value)) := by
  refine GuardedRun.forall_mem hrun fun t s e s' hg hstep => ?_
  obtain ⟨w, hans, -⟩ := hstep.exec
  refine ⟨fun x hx => unpoisoned_of_sound (hG t s e hg.2) (hans.symm.trans hx), fun hnone => ?_⟩
  refine (panics_of_sound (hG t s e hg.2) (hans.symm.trans hnone)).imp_right ?_
  rintro ⟨driverId, value, ha, -⟩
  exact ⟨driverId, value, ha⟩

end Controller

end Slonk
