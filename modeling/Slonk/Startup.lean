/-
# Starting up

`server.rs`: what `run` does before it starts its threads.  It creates the directory of the logs and
the console log in it, parses the configuration, creates a log file for each sensor and three more,
and only then asks for GPIO.

`file_create_new` never opens a file that is there.  So no start, whatever comes of it, touches what an
earlier one has left; the files that a start hands to the threads are new and pairwise different, one
for each sensor; and no line is asked for before the configuration has been accepted and all of the
files are there (`start_up_safe`).

Where a path leads is a parameter (`Layout`), and a place holds a directory, a file or nothing.  The host
has a terminal to print to and a clock past the UNIX epoch: `UserLog::write` panics without them, and the
start goes no further.
-/
import Slonk.Hardware
import Slonk.Operations
import Slonk.Concurrency.Within

namespace Slonk

open Concurrency

/-- `Display` of `config::Error`. -/
def ConfigError.display : ConfigError → String
  | malformed cause => s!"Failed to parse JSON for configuration: {cause}"
  | noSuchAdc adc => s!"ADC {adc} is referenced but not listed in set of ADC chip select pins"
  | badChannel channel => s!"ADC channel {channel} referenced (must be in 0..=7)"
  | clockTooSlow => s!"SPI clock frequency is too slow (must be at least {spiMinFrequency} Hz)"
  | noSuchDriver driverId =>
    s!"A procedure refers to a driver with ID {driverId}, but no such driver is given in the list of drivers"
  | duplicatePin pin => s!"GPIO pin {pin} is used for multiple purposes"
  | reservedPin pin => s!"GPIO pin {pin} is not allowed to be used on the Raspberry Pi"

/-- `Display` of `LogLevel`. -/
def LogLevel.display : LogLevel → String
  | debug => "DEBUG"
  | info => "INFO"
  | warn => "WARN"
  | critical => "CRITICAL"

namespace Startup

/-! ## 1. The disk -/

/-- `std::io::Error`, as far as the start distinguishes it. -/
inductive IoError
  | alreadyExists
  | notFound
  | notADirectory
  | other (description : String)
  deriving DecidableEq, Repr

/-- `ControllerError`, as far as the start returns it. -/
inductive StartError
  | args (message : String)
  | console (e : IoError)
  | configuration (e : ConfigError)
  | gpio (e : GpioError)
  deriving DecidableEq, Repr

/-- What is at a place. -/
inductive Entry
  | directory
  | file (text : String)
  deriving DecidableEq, Repr

/-- Where a path leads, the places of the directories it leads through, and those of the directories
that `create_dir_all` makes for it. -/
structure Layout (Place : Type) where
  place : String → Place
  parents : String → List Place
  directories : String → List Place

/-- What is at each place. -/
structure Disk (Place : Type) where
  entries : Place → Option Entry

/-- The operations of the start. -/
inductive Op (Place : Type)
  /-- `create_dir_all(path)` -/
  | createDirAll (path : String)
  /-- `File::options().read(true).write(true).create_new(true).open(path)` -/
  | createNew (path : String)
  /-- `File::open(path)`, with what reading it will yield -/
  | openFile (path : String)
  /-- a text written to a file -/
  | write (file : Place) (text : String)
  /-- `SystemTime::now()` -/
  | now
  /-- `Chip::new("/dev/gpiochip0")` -/
  | chip
  | gpio (o : GpioOp)
  deriving DecidableEq

@[reducible] def Op.Ans {Place : Type} : Op Place → Type
  | createDirAll _ => Except IoError Unit
  | createNew _ => Except IoError Place
  | openFile _ => Except IoError Source
  | write _ _ => Except IoError Unit
  | now => Nat
  | chip => Except GpioError Unit
  | gpio o => o.Ans

/-- What the outside world decides when an operation runs. -/
structure World where
  now : Nat
  ioFails : Option IoError
  written : Nat
  source : Source
  gpioFails : Option GpioError

/-- An operation that fails, or has this result. -/
def failing {ε α : Type} (fails : Option ε) (a : α) : Except ε α :=
  match fails with
  | some e => .error e
  | none => .ok a

variable {Place : Type}

section Exec

variable [DecidableEq Place] (layout : Layout Place)

/-- A place with a file at it. -/
def Disk.hasFile (d : Disk Place) (place : Place) : Bool :=
  match d.entries place with
  | some (.file _) => true
  | _ => false

/-- Why a path cannot be followed: one of the directories it leads through is not there, or is none. -/
def Disk.obstacle (d : Disk Place) (parents : List Place) : Option IoError :=
  parents.findSome? fun place =>
    match d.entries place with
    | some .directory => none
    | some (.file _) => some .notADirectory
    | none => some .notFound

/-- Directories at these places, where there is nothing. -/
def Disk.makeDirectories (d : Disk Place) (places : List Place) : Disk Place where
  entries place :=
    if place ∈ places then (d.entries place).or (some .directory) else d.entries place

/-- A text at the end of the file at a place. -/
def Disk.append (d : Disk Place) (file : Place) (text : String) : Disk Place where
  entries place :=
    if place = file then (d.entries place).map fun
      | .file before => .file (before ++ text)
      | .directory => .directory
    else d.entries place

/-- The effect of one operation. -/
def exec : (o : Op Place) → World → Disk Place → Option o.Ans × Disk Place
  | .createDirAll path, w, d =>
    match w.ioFails with
    | some e => (some (.error e), d)
    | none =>
      match (layout.directories path).find? d.hasFile with
      | some place =>
        -- a file in the way, or where the path leads
        (some (.error (if (layout.directories path).getLast? = some place then .alreadyExists
          else .notADirectory)), d)
      | none => (some (.ok ()), d.makeDirectories (layout.directories path))
  | .createNew path, w, d =>
    match w.ioFails with
    | some e => (some (.error e), d)
    | none =>
      match d.obstacle (layout.parents path) with
      | some e => (some (.error e), d)
      | none =>
        if (d.entries (layout.place path)).isSome then (some (.error .alreadyExists), d)
        else (some (.ok (layout.place path)),
          ⟨Function.update d.entries (layout.place path) (some (.file ""))⟩)
  | .openFile _, w, d => (some (failing w.ioFails w.source), d)
  | .write file text, w, d =>
    match w.ioFails with
    | some e => (some (.error e), d.append file (String.ofList (text.toList.take w.written)))
    | none => (some (.ok ()), d.append file text)
  | .now, w, d => (some w.now, d)
  | .chip, w, d => (some (failing w.gpioFails ()), d)
  | .gpio _, w, d => (some (failing w.gpioFails ()), d)

/-- The operations as a machine; no thread is started yet. -/
def machine : Machine (Op Place) Op.Ans (Disk Place) World where
  exec := exec layout
  fork _ := none

end Exec

/-! ## 2. The start -/

/-- A program of the start. -/
abbrev Starting (Place α : Type) := Fallible (Op Place) Op.Ans StartError α

/-- `PathBuf::push`, on Unix. -/
def push (path component : String) : String :=
  if component.toList.head? = some '/' then component
  else if path.toList.getLast?.any (· ≠ '/') then path ++ "/" ++ component
  else path ++ component

/-- `PathBuf::from_iter`. -/
def pathOf (components : List String) : String := components.foldl push ""

/-- "[{log_time_nanos}] [{level}] {string}" -/
def userLine (time : Nat) (level : LogLevel) (string : String) : String :=
  let level := level.display
  s!"[{time}] [{level}] {string}\n"

/-- `user_log.debug(string)?` and its siblings, on this file. -/
def log (console : Place) (level : LogLevel) (string : String) : Starting Place Unit := do
  let time ← Fallible.call Op.now
  Fallible.attempt (.write console (userLine time level string)) fun r => r.mapError .console

/-- `create_dir_all(path)?` -/
def createDirAll (path : String) : Starting Place Unit :=
  Fallible.attempt (.createDirAll path) fun r => r.mapError .console

/-- `file_create_new(path)?` -/
def fileCreateNew (path : String) : Starting Place Place :=
  Fallible.attempt (.createNew path) fun r => r.mapError .console

/-- The path of the console log. -/
def consolePath (logsPath : String) : String := pathOf [logsPath, "console.txt"]

/-- The path of the directory of a group. -/
def groupPath (logsPath : String) (group : SensorGroup) : String := pathOf [logsPath, group.label]

/-- The path of the log of a sensor. -/
def sensorPath (logsPath : String) (group : SensorGroup) (sensor : Sensor) : String :=
  push (groupPath logsPath group) (sensor.label ++ ".csv")

/-- "create file for this specific sensor" -/
def createSensorLogs (console : Place) (logsPath : String) (group : SensorGroup) :
    List Sensor → Starting Place (List Place)
  | [] => pure []
  | sensor :: sensors => do
    let path := sensorPath logsPath group sensor
    let file ← fileCreateNew path
    log console .info s!"Created log file {path}"
    let files ← createSensorLogs console logsPath group sensors
    pure (file :: files)

/-- The loop over `config.sensor_groups`. -/
def createGroupLogs (console : Place) (logsPath : String) :
    List SensorGroup → Starting Place (List (List Place))
  | [] => pure []
  | group :: groups => do
    let path := groupPath logsPath group
    createDirAll path
    log console .info s!"Created directory {path}"
    let files ← createSensorLogs console logsPath group group.sensors
    let others ← createGroupLogs console logsPath groups
    pure (files :: others)

/-- The log files. -/
structure Logs (Place : Type) where
  console : Place
  sensors : List (List Place)
  commands : Place
  drivers : Place
  sent : Place
  deriving DecidableEq, Repr

/-- Their places, in the order in which they are created. -/
def Logs.places (logs : Logs Place) : List Place :=
  logs.console :: (logs.sensors.flatten ++ [logs.commands, logs.drivers, logs.sent])

/-- From "Creating log files" on. -/
def createLogs (console : Place) (logsPath : String) (config : Configuration) :
    Starting Place (Logs Place) := do
  log console .debug "Creating log files"
  let sensors ← createGroupLogs console logsPath config.sensorGroups
  let commands ← fileCreateNew (pathOf [logsPath, "commands.csv"])
  let drivers ← fileCreateNew (pathOf [logsPath, "drivers.csv"])
  let sent ← fileCreateNew (pathOf [logsPath, "sent.csv"])
  log console .debug "Successfully created log files"
  pure ⟨console, sensors, commands, drivers, sent⟩

/-- From "Parsing configuration file..." on, over the deserialiser `fromReader`. -/
def readConfiguration (fromReader : Source → Except String Configuration) (console : Place)
    (jsonPath : String) : Starting Place Configuration := do
  log console .debug "Parsing configuration file..."
  let source ← Fallible.attempt (.openFile jsonPath) fun r => r.mapError .console
  match Configuration.parse fromReader source with
  | .error e =>
    let text := e.display
    log console .critical s!"Failed to parse configuration: {text}"
    throw (.configuration e)
  | .ok config =>
    log console .debug "Successfully parsed configuration file"
    pure config

/-- What the hardware set-up hands over. -/
structure Hardware where
  bus : BusHandles
  adcs : List AdcHandle
  heartbeat : LineHandle
  drivers : List LineHandle
  deriving DecidableEq, Repr

/-- A part of the hardware set-up. -/
def ofGpio {α : Type} (p : SetUp α) : Starting Place α :=
  ExceptT.mk ((p.run.expand fun o => .op (.gpio o) fun a => .ret a).bind fun r =>
    .ret (r.mapError fun | .gpio e => .gpio e))

/-- From "Now acquiring GPIO" on. -/
def acquire (console : Place) (config : Configuration) : Starting Place Hardware := do
  log console .debug "Now acquiring GPIO"
  Fallible.attempt .chip fun r => r.mapError .gpio
  let bus ← ofGpio (RaspberryPi.bus config)
  let adcs ← ofGpio (RaspberryPi.adcs config bus)
  let heartbeat ← ofGpio (RaspberryPi.heartbeat config)
  let drivers ← ofGpio (RaspberryPi.drivers config)
  log console .debug "Successfully acquired GPIO handles"
  log console .debug "Now spawning sensor listener threads..."
  pure ⟨bus, adcs, heartbeat, drivers⟩

/-- What the threads are given. -/
structure Started (Place : Type) where
  config : Configuration
  logs : Logs Place
  hardware : Hardware
  deriving DecidableEq, Repr

/-- `file_create_new` of the console log; the source maps every error to one. -/
def createConsole (logsPath : String) : Starting Place Place :=
  Fallible.attempt (.createNew (consolePath logsPath)) fun
    | .ok file => .ok file
    | .error _ => .error (.console .alreadyExists)

/-- `if args.len() > 2` -/
def warnExtra (console : Place) (rest : List String) : Starting Place Unit :=
  if rest ≠ [] then
    log console .warn
      "More than two arguments given to controller executable. Ignoring extra arguments."
  else pure ()

/-- `run`, up to the scope of its threads. -/
def start (fromReader : Source → Except String Configuration) :
    List String → Starting Place (Started Place)
  | [] => throw (.args "No configuration JSON path given")
  | [_] => throw (.args "No logs path given")
  | jsonPath :: logsPath :: rest => do
    createDirAll logsPath
    let console ← createConsole logsPath
    warnExtra console rest
    let config ← readConfiguration fromReader console jsonPath
    let logs ← createLogs console logsPath config
    let hardware ← acquire console config
    pure ⟨config, logs, hardware⟩

/-! ## 3. What the start may do -/

/-- The paths of the logs of an accepted configuration, in the order in which they are created. -/
def logPaths (logsPath : String) (config : Configuration) : List String :=
  consolePath logsPath ::
    ((config.sensorGroups.flatMap fun group => group.sensors.map (sensorPath logsPath group)) ++
      [pathOf [logsPath, "commands.csv"], pathOf [logsPath, "drivers.csv"],
        pathOf [logsPath, "sent.csv"]])

/-- How far a start has come: the files it has created, and the configuration it has accepted. -/
structure Progress (Place : Type) where
  created : List (String × Place)
  accepted : Option Configuration

/-- The paths, and the files. -/
def Progress.paths (γ : Progress Place) : List String := γ.created.map Prod.fst

def Progress.files (γ : Progress Place) : List Place := γ.created.map Prod.snd

/-- All the logs of the configuration have been created. -/
def Progress.Complete (logsPath : String) (γ : Progress Place) : Prop :=
  ∃ config, γ.accepted = some config ∧ γ.paths = logPaths logsPath config

/-- The files that may be created. -/
def planned (logsPath : String) : Option Configuration → List String
  | none => [consolePath logsPath]
  | some config => logPaths logsPath config

section Protocol

variable (fromReader : Source → Except String Configuration) (jsonPath logsPath : String)

/-- **The files are created as planned**, texts go to the console log alone, the configuration is read
from the file that was named, and GPIO comes last. -/
def starting : Protocol (Op Place) Op.Ans (Progress Place) where
  permits γ
    | .createNew path => γ.paths ++ [path] <+: planned logsPath γ.accepted
    | .write file _ => γ.files.head? = some file
    | .openFile path => path = jsonPath
    | .chip => γ.Complete logsPath
    | .gpio _ => γ.Complete logsPath
    | _ => True
  aborts γ := γ.Complete logsPath
  next γ
    | ⟨.createNew path, some (.ok file)⟩ => { γ with created := γ.created ++ [(path, file)] }
    | ⟨.openFile _, some (.ok source)⟩ =>
      { γ with accepted := (Configuration.parse fromReader source).toOption }
    | _ => γ

/-- From `γ` the program does so, and `Q` holds of its result. -/
abbrev Starts {α : Type} (γ : Progress Place) (p : Starting Place α) (Q : α → Progress Place → Prop) :
    Prop :=
  p.run.Follows (starting fromReader jsonPath logsPath) (fun _ _ => True) γ
    fun r γ' => ∀ a, r = .ok a → Q a γ'

variable {fromReader jsonPath logsPath} {α β : Type} {γ : Progress Place} {console : Place}

theorem starts_pure {a : α} {Q : α → Progress Place → Prop} (h : Q a γ) :
    Starts fromReader jsonPath logsPath γ (pure a) Q := by
  rintro _ ⟨⟩
  exact h

theorem starts_throw {e : StartError} {Q : α → Progress Place → Prop} :
    Starts fromReader jsonPath logsPath γ (throw e) Q := by
  rintro _ ⟨⟩

/-- **Sequencing.** -/
theorem starts_bind {p : Starting Place α} {f : α → Starting Place β}
    {P : α → Progress Place → Prop} {Q : β → Progress Place → Prop}
    (hp : Starts fromReader jsonPath logsPath γ p P)
    (hf : ∀ a γ', P a γ' → Starts fromReader jsonPath logsPath γ' (f a) Q) :
    Starts fromReader jsonPath logsPath γ (p >>= f) Q :=
  Fallible.follows_bind hp (fun a γ' h => hf a γ' (h a rfl)) fun e γ' _ => by rintro _ ⟨⟩

/-- A part that creates nothing. -/
theorem starts_then {p : Starting Place α} {f : α → Starting Place β}
    {Q : β → Progress Place → Prop}
    (hp : Starts fromReader jsonPath logsPath γ p fun _ γ' => γ' = γ)
    (hf : ∀ a, Starts fromReader jsonPath logsPath γ (f a) Q) :
    Starts fromReader jsonPath logsPath γ (p >>= f) Q :=
  starts_bind hp fun a _ h => h ▸ hf a

theorem starts_log (hconsole : γ.files.head? = some console) (level : LogLevel) (string : String) :
    Starts fromReader jsonPath logsPath γ (log console level string) fun _ γ' => γ' = γ :=
  ⟨trivial, fun _ _ => ⟨hconsole, fun _ _ _ _ => rfl⟩⟩

theorem starts_createDirAll (path : String) :
    Starts fromReader jsonPath logsPath γ (createDirAll path) fun _ γ' => γ' = γ :=
  ⟨trivial, fun _ _ _ _ => rfl⟩

theorem starts_fileCreateNew {path : String}
    (hplanned : γ.paths ++ [path] <+: planned logsPath γ.accepted) :
    Starts fromReader jsonPath logsPath γ (fileCreateNew path) fun file γ' =>
      γ' = { γ with created := γ.created ++ [(path, file)] } := by
  refine ⟨hplanned, ?_⟩
  rintro (e | file) - a ha
  · cases ha
  · cases ha
    rfl

/-- These files have been created meanwhile, at these paths. -/
structure Progress.Extended (γ γ' : Progress Place) (paths : List String) (files : List Place) :
    Prop where
  accepted : γ'.accepted = γ.accepted
  paths : γ'.paths = γ.paths ++ paths
  files : γ'.files = γ.files ++ files

theorem Progress.Extended.refl (γ : Progress Place) : γ.Extended γ [] [] :=
  ⟨rfl, by simp, by simp⟩

theorem Progress.Extended.one (γ : Progress Place) (path : String) (file : Place) :
    γ.Extended { γ with created := γ.created ++ [(path, file)] } [path] [file] :=
  ⟨rfl, by simp [Progress.paths], by simp [Progress.files]⟩

theorem Progress.Extended.trans {γ' γ'' : Progress Place} {paths paths' : List String}
    {files files' : List Place} (h : γ.Extended γ' paths files) (h' : γ'.Extended γ'' paths' files') :
    γ.Extended γ'' (paths ++ paths') (files ++ files') where
  accepted := h'.accepted.trans h.accepted
  paths := by rw [h'.paths, h.paths, List.append_assoc]
  files := by rw [h'.files, h.files, List.append_assoc]

/-- The console log stays the first one. -/
theorem Progress.Extended.head {γ' : Progress Place} {paths : List String} {files : List Place}
    (h : γ.Extended γ' paths files) (hconsole : γ.files.head? = some console) :
    γ'.files.head? = some console := by
  rw [h.files, List.head?_append, hconsole]
  rfl

/-- What is planned after that. -/
theorem Progress.Extended.planned {γ' : Progress Place} {paths rest : List String}
    {files : List Place} (h : γ.Extended γ' paths files)
    (hplanned : γ.paths ++ (paths ++ rest) <+: planned logsPath γ.accepted) :
    γ'.paths ++ rest <+: Startup.planned logsPath γ'.accepted := by
  rw [h.paths, h.accepted, List.append_assoc]
  exact hplanned

/-- The next of several. -/
theorem planned_head {path : String} {rest : List String}
    (hplanned : γ.paths ++ (path :: rest) <+: planned logsPath γ.accepted) :
    γ.paths ++ [path] <+: planned logsPath γ.accepted :=
  .trans (by rw [List.prefix_append_right_inj]; exact List.prefix_append [path] rest) hplanned

theorem starts_createSensorLogs (group : SensorGroup) : ∀ (sensors : List Sensor)
    {γ : Progress Place}, γ.files.head? = some console →
    γ.paths ++ sensors.map (sensorPath logsPath group) <+: planned logsPath γ.accepted →
    Starts fromReader jsonPath logsPath γ (createSensorLogs console logsPath group sensors) fun files γ' =>
      γ.Extended γ' (sensors.map (sensorPath logsPath group)) files ∧
        files.length = sensors.length
  | [], γ, _, _ => starts_pure ⟨.refl γ, rfl⟩
  | sensor :: sensors, γ, hconsole, hplanned => by
    refine starts_bind (starts_fileCreateNew (planned_head hplanned)) ?_
    rintro file _ rfl
    have hone := Progress.Extended.one γ (sensorPath logsPath group sensor) file
    refine starts_then (starts_log (hone.head hconsole) .info _) fun _ => ?_
    refine starts_bind (starts_createSensorLogs group sensors (hone.head hconsole)
      (hone.planned hplanned)) ?_
    rintro files γ' ⟨hext, hlength⟩
    exact starts_pure ⟨hone.trans hext, by simp [hlength]⟩

theorem starts_createGroupLogs : ∀ (groups : List SensorGroup) {γ : Progress Place},
    γ.files.head? = some console →
    (γ.paths ++ groups.flatMap fun group => group.sensors.map (sensorPath logsPath group)) <+:
      planned logsPath γ.accepted →
    Starts fromReader jsonPath logsPath γ (createGroupLogs console logsPath groups) fun files γ' =>
      γ.Extended γ' (groups.flatMap fun group => group.sensors.map (sensorPath logsPath group))
        files.flatten ∧ files.map List.length = groups.map (·.sensors.length)
  | [], γ, _, _ => starts_pure ⟨.refl γ, rfl⟩
  | group :: groups, γ, hconsole, hplanned => by
    refine starts_then (starts_createDirAll _) fun _ => ?_
    refine starts_then (starts_log hconsole .info _) fun _ => ?_
    refine starts_bind (starts_createSensorLogs group group.sensors hconsole
      (.trans ?_ hplanned)) ?_
    · rw [List.prefix_append_right_inj]
      exact List.prefix_append _ _
    rintro files γ' ⟨hext, hlength⟩
    refine starts_bind (starts_createGroupLogs groups (hext.head hconsole)
      (hext.planned hplanned)) ?_
    rintro others γ'' ⟨hext', hlengths⟩
    exact starts_pure ⟨hext.trans hext', by simp [hlength, hlengths]⟩

theorem starts_warnExtra (hconsole : γ.files.head? = some console) (rest : List String) :
    Starts fromReader jsonPath logsPath γ (warnExtra console rest) fun _ γ' => γ' = γ := by
  unfold warnExtra
  split
  · exact starts_log hconsole .warn _
  · exact starts_pure rfl

theorem starts_createLogs {config : Configuration} (hconsole : γ.files.head? = some console)
    (haccepted : γ.accepted = some config) (hpaths : γ.paths = [consolePath logsPath]) :
    Starts fromReader jsonPath logsPath γ (createLogs console logsPath config) fun logs γ' =>
      γ'.accepted = some config ∧ γ'.paths = logPaths logsPath config ∧
        γ'.files = γ.files ++ logs.places.tail ∧ logs.console = console ∧
        logs.sensors.map List.length = config.sensorGroups.map (·.sensors.length) := by
  have hplanned : γ.paths ++ ((config.sensorGroups.flatMap fun group =>
      group.sensors.map (sensorPath logsPath group)) ++
      [pathOf [logsPath, "commands.csv"], pathOf [logsPath, "drivers.csv"],
        pathOf [logsPath, "sent.csv"]]) <+: planned logsPath γ.accepted := by
    rw [hpaths, haccepted]
    exact List.prefix_rfl
  refine starts_then (starts_log hconsole .debug _) fun _ => ?_
  refine starts_bind (starts_createGroupLogs config.sensorGroups hconsole (.trans ?_ hplanned)) ?_
  · rw [List.prefix_append_right_inj]
    exact List.prefix_append _ _
  rintro sensors γ₁ ⟨hext₁, hlengths⟩
  have hplanned₁ := hext₁.planned hplanned
  refine starts_bind (starts_fileCreateNew (planned_head hplanned₁)) ?_
  rintro commands _ rfl
  have hext₂ := Progress.Extended.one γ₁ (pathOf [logsPath, "commands.csv"]) commands
  have hplanned₂ := hext₂.planned hplanned₁
  refine starts_bind (starts_fileCreateNew (planned_head hplanned₂)) ?_
  rintro drivers _ rfl
  have hext₃ := Progress.Extended.one
    { γ₁ with created := γ₁.created ++ [(pathOf [logsPath, "commands.csv"], commands)] }
    (pathOf [logsPath, "drivers.csv"]) drivers
  have hplanned₃ := hext₃.planned hplanned₂
  refine starts_bind (starts_fileCreateNew (planned_head hplanned₃)) ?_
  rintro sent γ₄ rfl
  have hext := hext₁.trans (hext₂.trans (hext₃.trans (.one _ (pathOf [logsPath, "sent.csv"]) sent)))
  refine starts_then (starts_log (hext.head hconsole) .debug _) fun _ => ?_
  refine starts_pure ⟨hext.accepted.trans haccepted, ?_, hext.files, rfl, hlengths⟩
  rw [hext.paths, hpaths]
  rfl

theorem starts_readConfiguration (hconsole : γ.files.head? = some console) :
    Starts fromReader jsonPath logsPath γ (readConfiguration fromReader console jsonPath)
      fun config γ' => γ' = { γ with accepted := some config } := by
  refine starts_then (starts_log hconsole .debug _) fun _ => ?_
  refine starts_bind (P := fun source γ' =>
    γ' = { γ with accepted := (Configuration.parse fromReader source).toOption }) ⟨rfl, ?_⟩ ?_
  · rintro (e | source) - a ha
    · cases ha
    · cases ha
      rfl
  rintro source _ rfl
  cases hparse : Configuration.parse fromReader source with
  | error e =>
    refine starts_then (starts_log (γ := { γ with accepted := none }) hconsole .critical _) fun _ => ?_
    exact starts_throw
  | ok config =>
    refine starts_then (starts_log (γ := { γ with accepted := some config }) hconsole .debug _) fun _ => ?_
    exact starts_pure rfl

/-- GPIO leaves the files alone. -/
theorem starts_ofGpio (hcomplete : γ.Complete logsPath) (p : SetUp α) :
    Starts fromReader jsonPath logsPath γ (ofGpio p : Starting Place α) fun _ γ' => γ' = γ := by
  have hall : p.run.All fun _ => True := .of_forall (fun _ => trivial) _
  refine Prog.Follows.bind ((Prog.All.follows_expand hall hcomplete fun o _ => ?_).mono ?_)
  · exact ⟨hcomplete, fun _ _ => rfl⟩
  · rintro r _ rfl a _
    rfl

theorem starts_acquire {config : Configuration} (hconsole : γ.files.head? = some console)
    (hcomplete : γ.Complete logsPath) :
    Starts fromReader jsonPath logsPath γ (acquire console config) fun _ γ' => γ' = γ := by
  refine starts_then (starts_log hconsole .debug _) fun _ => ?_
  refine starts_then ⟨hcomplete, fun _ _ _ _ => rfl⟩ fun _ => ?_
  refine starts_then (starts_ofGpio hcomplete _) fun bus => ?_
  refine starts_then (starts_ofGpio hcomplete _) fun adcs => ?_
  refine starts_then (starts_ofGpio hcomplete _) fun heartbeat => ?_
  refine starts_then (starts_ofGpio hcomplete _) fun drivers => ?_
  refine starts_then (starts_log hconsole .debug _) fun _ => ?_
  refine starts_then (starts_log hconsole .debug _) fun _ => ?_
  exact starts_pure rfl

/-- Nothing has been created. -/
def Progress.none : Progress Place := ⟨[], Option.none⟩

/-- **A start** that succeeds has accepted a configuration and created its logs. -/
theorem starts_start (rest : List String) :
    Starts fromReader jsonPath logsPath .none
      (start fromReader (jsonPath :: logsPath :: rest) : Starting Place (Started Place))
      fun started γ' => γ'.accepted = some started.config ∧
        γ'.paths = logPaths logsPath started.config ∧ γ'.files = started.logs.places ∧
        started.logs.sensors.map List.length
          = started.config.sensorGroups.map (·.sensors.length) := by
  refine starts_then (starts_createDirAll logsPath) fun _ => ?_
  refine starts_bind (P := fun console γ' => γ' = ⟨[(consolePath logsPath, console)], Option.none⟩)
    ⟨List.prefix_rfl, ?_⟩ ?_
  · rintro (e | console) - a ha
    · cases ha
    · cases ha
      rfl
  rintro console γ₁ rfl
  have hconsole : (Progress.files ⟨[(consolePath logsPath, console)], Option.none⟩).head?
      = some console := rfl
  refine starts_then (starts_warnExtra hconsole rest) fun _ => ?_
  refine starts_bind (starts_readConfiguration hconsole) ?_
  rintro config _ rfl
  refine starts_bind (starts_createLogs hconsole rfl rfl) ?_
  rintro logs γ₃ ⟨haccepted, hpaths, hfiles, rfl, hlengths⟩
  have hplaces : γ₃.files = logs.places := hfiles
  refine starts_then (starts_acquire (by rw [hplaces]; rfl) ⟨config, haccepted, hpaths⟩) fun hardware => ?_
  exact starts_pure ⟨haccepted, hpaths, hplaces, hlengths⟩

end Protocol

/-! ## 4. What it leaves -/

section Runs

variable {layout : Layout Place} {fromReader : Source → Except String Configuration}
  {logsPath : String} {d₀ d : Disk Place} {γ : Progress Place}

/-- A start that has come so far has left the disk like this. -/
structure Kept (layout : Layout Place) (d₀ : Disk Place) (γ : Progress Place) (d : Disk Place) :
    Prop where
  accepted : ∀ config, γ.accepted = some config → config.Accepted
  old : ∀ place entry, d₀.entries place = some entry → d.entries place = some entry
  placed : γ.files = γ.paths.map layout.place
  fresh : ∀ place ∈ γ.files, d₀.entries place = none
  nodup : γ.files.Nodup
  files : ∀ place ∈ γ.files, ∃ text, d.entries place = some (.file text)
  empty : ∀ place ∈ γ.files.tail, d.entries place = some (.file "")

theorem kept_none (layout : Layout Place) (d₀ : Disk Place) : Kept layout d₀ .none d₀ :=
  ⟨nofun, fun _ _ h => h, rfl, nofun, List.nodup_nil, nofun, nofun⟩

/-- A file is where its path leads. -/
theorem Kept.placed_of_mem (h : Kept layout d₀ γ d) {x : String × Place} (hx : x ∈ γ.created) :
    x.2 = layout.place x.1 := by
  have hplaced := h.placed
  rw [Progress.files, Progress.paths, List.map_map] at hplaced
  exact List.map_inj_left.mp hplaced x hx

/-- Nothing is lost where something was. -/
theorem Kept.grow (h : Kept layout d₀ γ d) {d' : Disk Place}
    (hd : ∀ place entry, d.entries place = some entry → d'.entries place = some entry) :
    Kept layout d₀ γ d' where
  accepted := h.accepted
  old place entry he := hd place entry (h.old place entry he)
  placed := h.placed
  fresh := h.fresh
  nodup := h.nodup
  files place hp := (h.files place hp).imp fun _ ht => hd place _ ht
  empty place hp := hd place _ (h.empty place hp)

variable [DecidableEq Place]

/-- A file that is created was not there. -/
theorem Kept.created (h : Kept layout d₀ γ d) {path : String}
    (hnone : d.entries (layout.place path) = none) :
    Kept layout d₀ { γ with created := γ.created ++ [(path, layout.place path)] }
      ⟨Function.update d.entries (layout.place path) (some (.file ""))⟩ := by
  have hne : ∀ place entry, d.entries place = some entry → place ≠ layout.place path := by
    rintro place entry he rfl
    rw [hnone] at he
    cases he
  have hfiles : Progress.files { γ with created := γ.created ++ [(path, layout.place path)] }
      = γ.files ++ [layout.place path] := by simp [Progress.files]
  have hsame : ∀ place entry, d.entries place = some entry →
      Function.update d.entries (layout.place path) (some (.file "")) place = some entry :=
    fun place entry he => by rw [Function.update_of_ne (hne place entry he), he]
  have hnew : layout.place path ∉ γ.files := fun hp => by
    obtain ⟨text, ht⟩ := h.files _ hp
    exact hne _ _ ht rfl
  constructor
  · exact h.accepted
  · exact fun place entry he => hsame place entry (h.old place entry he)
  · rw [hfiles, h.placed]
    simp [Progress.paths]
  · rw [hfiles]
    intro place hp
    rcases List.mem_append.mp hp with hp | hp
    · exact h.fresh place hp
    · obtain rfl := List.mem_singleton.mp hp
      by_contra he
      obtain ⟨entry, he⟩ := Option.ne_none_iff_exists'.mp he
      exact hne _ _ (h.old _ _ he) rfl
  · rw [hfiles, List.nodup_append]
    refine ⟨h.nodup, List.nodup_singleton _, fun place hp place' hp' => ?_⟩
    obtain rfl := List.mem_singleton.mp hp'
    rintro rfl
    exact hnew hp
  · rw [hfiles]
    intro place hp
    rcases List.mem_append.mp hp with hp | hp
    · obtain ⟨text, ht⟩ := h.files place hp
      exact ⟨text, hsame place _ ht⟩
    · obtain rfl := List.mem_singleton.mp hp
      exact ⟨"", by simp⟩
  · rw [hfiles]
    intro place hp
    rcases List.mem_append.mp (List.mem_of_mem_tail hp) with hp' | hp'
    · cases hcreated : γ.files with
      | nil =>
        rw [hcreated] at hp'
        cases hp'
      | cons console others =>
        rw [hcreated, List.cons_append, List.tail_cons] at hp
        rcases List.mem_append.mp hp with hp | hp
        · exact hsame place _ (h.empty place (by rw [hcreated]; exact hp))
        · obtain rfl := List.mem_singleton.mp hp
          simp
    · obtain rfl := List.mem_singleton.mp hp'
      simp

/-- A text at the end of the console log. -/
theorem Kept.appended (h : Kept layout d₀ γ d) {console : Place}
    (hconsole : γ.files.head? = some console) (text : String) :
    Kept layout d₀ γ (d.append console text) := by
  obtain ⟨others, hfiles⟩ : ∃ others, γ.files = console :: others := by
    cases hcreated : γ.files with
    | nil =>
      rw [hcreated] at hconsole
      cases hconsole
    | cons place others =>
      rw [hcreated] at hconsole
      exact ⟨others, by rw [Option.some.inj hconsole]⟩
  have hother : ∀ place, place ≠ console → (d.append console text).entries place
      = d.entries place := fun place hp => by simp [Disk.append, hp]
  constructor
  · exact h.accepted
  · intro place entry he
    rw [hother place ?_]
    · exact h.old place entry he
    · rintro rfl
      rw [h.fresh place (by simp [hfiles])] at he
      cases he
  · exact h.placed
  · exact h.fresh
  · exact h.nodup
  · intro place hp
    obtain ⟨before, hb⟩ := h.files place hp
    by_cases hplace : place = console
    · subst hplace
      exact ⟨before ++ text, by simp [Disk.append, hb]⟩
    · exact ⟨before, by rw [hother place hplace, hb]⟩
  · intro place hp
    have hne : place ≠ console := by
      rintro rfl
      have hnodup := h.nodup
      rw [hfiles] at hp hnodup
      exact (List.nodup_cons.mp hnodup).1 hp
    rw [hother place hne]
    exact h.empty place hp

/-- **One operation.** -/
theorem kept_exec (γ : Progress Place) (o : Op Place) (w : World) (d : Disk Place)
    (hpermits : (starting fromReader jsonPath logsPath).permits γ o) (h : Kept layout d₀ γ d) :
    Kept layout d₀ ((starting fromReader jsonPath logsPath).next γ ⟨o, (exec layout o w d).1⟩)
      (exec layout o w d).2 := by
  cases o with
  | createDirAll path =>
    simp only [exec]
    split
    · exact h
    · split
      · exact h
      · refine h.grow fun place entry he => ?_
        simp [Disk.makeDirectories, he]
  | createNew path =>
    simp only [exec]
    split
    · exact h
    · split
      · exact h
      · split
        · exact h
        · rename_i hnone
          exact h.created (Option.not_isSome_iff_eq_none.mp hnone)
  | openFile path =>
    simp only [exec, failing]
    split
    · exact h
    · refine ⟨fun config hconfig => ?_, h.old, h.placed, h.fresh, h.nodup, h.files, h.empty⟩
      change (Configuration.parse fromReader w.source).toOption = some config at hconfig
      cases hparse : Configuration.parse fromReader w.source with
      | error e =>
        rw [hparse] at hconfig
        cases hconfig
      | ok config' =>
        rw [hparse] at hconfig
        obtain rfl := Option.some.inj hconfig
        exact (Configuration.accepted_of_parse hparse).2
  | write file text =>
    simp only [exec]
    split
    · exact h.appended hpermits _
    · exact h.appended hpermits _
  | now => exact h
  | chip => exact h
  | gpio o => exact h

omit [DecidableEq Place] in
/-- What the protocol has recorded has happened. -/
theorem mem_created_after {h : List (Call (@Op.Ans Place))} {x : String × Place}
    (hx : x ∈ ((starting fromReader jsonPath logsPath).after .none h).created) :
    (⟨.createNew x.1, some (.ok x.2)⟩ : Call Op.Ans) ∈ h := by
  induction h using List.reverseRecOn with
  | nil => cases hx
  | append_singleton h c ih =>
    rw [Protocol.after_concat] at hx
    match c with
    | ⟨.createNew path, some (.ok file)⟩ =>
      rcases List.mem_append.mp hx with hx | hx
      · exact List.mem_append_left _ (ih hx)
      · obtain rfl := List.mem_singleton.mp hx
        simp
    | ⟨.createNew _, some (.error _)⟩ => exact List.mem_append_left _ (ih hx)
    | ⟨.createNew _, none⟩ => exact List.mem_append_left _ (ih hx)
    | ⟨.openFile _, some (.ok _)⟩ => exact List.mem_append_left _ (ih hx)
    | ⟨.openFile _, some (.error _)⟩ => exact List.mem_append_left _ (ih hx)
    | ⟨.openFile _, none⟩ => exact List.mem_append_left _ (ih hx)
    | ⟨.createDirAll _, _⟩ => exact List.mem_append_left _ (ih hx)
    | ⟨.write _ _, _⟩ => exact List.mem_append_left _ (ih hx)
    | ⟨.now, _⟩ => exact List.mem_append_left _ (ih hx)
    | ⟨.chip, _⟩ => exact List.mem_append_left _ (ih hx)
    | ⟨.gpio _, _⟩ => exact List.mem_append_left _ (ih hx)

omit [DecidableEq Place] in
theorem accepted_after {h : List (Call (@Op.Ans Place))} {config : Configuration}
    (haccepted : ((starting fromReader jsonPath logsPath).after .none h).accepted = some config) :
    ∃ path source, (⟨.openFile path, some (.ok source)⟩ : Call Op.Ans) ∈ h ∧
      Configuration.parse fromReader source = .ok config := by
  induction h using List.reverseRecOn with
  | nil => cases haccepted
  | append_singleton h c ih =>
    have hbefore : ((starting fromReader jsonPath logsPath).after .none h).accepted = some config →
        ∃ path source, (⟨.openFile path, some (.ok source)⟩ : Call Op.Ans) ∈ h ++ [c] ∧
          Configuration.parse fromReader source = .ok config := by
      intro h'
      obtain ⟨path, source, hmem, hparse⟩ := ih h'
      exact ⟨path, source, List.mem_append_left _ hmem, hparse⟩
    rw [Protocol.after_concat] at haccepted
    match c with
    | ⟨.openFile path, some (.ok source)⟩ =>
      change (Configuration.parse fromReader source).toOption = some config at haccepted
      refine ⟨path, source, by simp, ?_⟩
      cases hparse : Configuration.parse fromReader source with
      | error e =>
        rw [hparse] at haccepted
        cases haccepted
      | ok config' =>
        rw [hparse] at haccepted
        rw [Option.some.inj haccepted]
    | ⟨.openFile _, some (.error _)⟩ => exact hbefore haccepted
    | ⟨.openFile _, none⟩ => exact hbefore haccepted
    | ⟨.createNew _, some (.ok _)⟩ => exact hbefore haccepted
    | ⟨.createNew _, some (.error _)⟩ => exact hbefore haccepted
    | ⟨.createNew _, none⟩ => exact hbefore haccepted
    | ⟨.createDirAll _, _⟩ => exact hbefore haccepted
    | ⟨.write _ _, _⟩ => exact hbefore haccepted
    | ⟨.now, _⟩ => exact hbefore haccepted
    | ⟨.chip, _⟩ => exact hbefore haccepted
    | ⟨.gpio _, _⟩ => exact hbefore haccepted

/-- It asks for GPIO. -/
def Op.IsGpio : Op Place → Prop
  | chip => True
  | gpio _ => True
  | _ => False

/-- The configuration is the one that the file named has been found to hold. -/
def ConfigurationRead (fromReader : Source → Except String Configuration) (jsonPath : String)
    (t : List (Event (@Op.Ans Place))) (config : Configuration) : Prop :=
  ∃ source, (∃ e ∈ t, e.call = ⟨.openFile jsonPath, some (.ok source)⟩) ∧
    Configuration.parse fromReader source = .ok config

/-- **The threads get logs of their own**: one for each sensor and three more, at the paths of an
accepted configuration, where there was nothing before, all different and, but for the console log,
empty. -/
structure Started.Safe (layout : Layout Place) (logsPath : String) (d₀ d : Disk Place)
    (started : Started Place) : Prop where
  accepted : started.config.Accepted
  places : started.logs.places = (logPaths logsPath started.config).map layout.place
  sensors : started.logs.sensors.map List.length
    = started.config.sensorGroups.map (·.sensors.length)
  distinct : started.logs.places.Nodup
  fresh : ∀ place ∈ started.logs.places, d₀.entries place = none
  empty : ∀ place ∈ started.logs.places.tail, d.entries place = some (.file "")

section Start

variable {jsonPath : String} {rest : List String} {t : List (Event (@Op.Ans Place))}
  {s : Sys (Op Place) Op.Ans (Disk Place)}

/-- A start that has come so far. -/
theorem kept_of_run (hrun : Run (machine layout)
      ⟨d₀, [(start fromReader (jsonPath :: logsPath :: rest)).run.discard]⟩ t s) :
    Kept layout d₀ ((starting fromReader jsonPath logsPath).after .none (history 0 t)) s.shared ∧
      ∃ q, Prog.Steps (start fromReader (jsonPath :: logsPath :: rest)).run (history 0 t) q ∧
        s.threads = [q.discard] :=
  Run.alone (I := Kept layout d₀) (fun _ => rfl) (starts_start rest)
    (fun γ o w d => kept_exec γ o w d) (kept_none layout d₀) hrun

/-- What the start does next is permitted. -/
theorem permits_of_step {m : Sys (Op Place) Op.Ans (Disk Place)} {e : Event (@Op.Ans Place)}
    (hrun : Run (machine layout)
      ⟨d₀, [(start fromReader (jsonPath :: logsPath :: rest)).run.discard]⟩ t s)
    (hstep : (machine layout).StepTo s e m) :
    (starting fromReader jsonPath logsPath).permits ((starting fromReader jsonPath logsPath).after .none (history 0 t))
      e.call.op := by
  obtain ⟨-, q, hq, hthreads⟩ := kept_of_run hrun
  obtain ⟨k, hk, -⟩ := hstep.self
  rw [hthreads] at hk
  have htid : e.tid = 0 := by simpa using (List.getElem?_eq_some_iff.mp hk).1
  rw [htid] at hk
  cases q with
  | ret a => cases hk
  | panic => cases hk
  | op o k' =>
    obtain rfl : o = e.call.op := by
      have := Option.some.inj hk
      simp only [Prog.discard, Prog.bind_op] at this
      exact (Prog.op.inj this).1
    rcases (starts_start rest).steps hq fun _ _ _ _ => trivial with ⟨hpanic, -⟩ | hfollows
    · cases hpanic
    · exact hfollows.1

omit [DecidableEq Place] in
/-- GPIO is permitted when all the logs have been created. -/
theorem complete_of_permits {γ : Progress Place} {o : Op Place}
    (hpermits : (starting fromReader jsonPath logsPath).permits γ o) (hgpio : o.IsGpio) :
    γ.Complete logsPath := by
  cases o with
  | chip => exact hpermits
  | gpio o => exact hpermits
  | createDirAll path => exact hgpio.elim
  | createNew path => exact hgpio.elim
  | openFile path => exact hgpio.elim
  | write file text => exact hgpio.elim
  | now => exact hgpio.elim

/-- What the start has accepted is what it has read. -/
theorem read_of_accepted (hrun : Run (machine layout)
      ⟨d₀, [(start fromReader (jsonPath :: logsPath :: rest)).run.discard]⟩ t s) {config : Configuration}
    (haccepted : ((starting fromReader jsonPath logsPath).after .none (history 0 t)).accepted
      = some config) : ConfigurationRead fromReader jsonPath t config := by
  obtain ⟨path, source, hmem, hparse⟩ := accepted_after haccepted
  obtain ⟨e, he, -, hcall⟩ := mem_history.mp hmem
  refine ⟨source, ⟨e, he, ?_⟩, hparse⟩
  obtain ⟨t₁, t₂, rfl⟩ := List.append_of_mem he
  obtain ⟨m, m', hmoment⟩ := hrun.moment
  have hpath := permits_of_step hmoment.before hmoment.step
  rw [hcall] at hpath
  obtain rfl : path = jsonPath := hpath
  exact hcall

/-- **Starting up is safe**, whatever the outside world decides and wherever the start stops: nothing
that was on the disk is changed; GPIO is asked for only when the configuration has been read from the
file that was named, has been accepted, and all its logs have been created; and a start that succeeds
hands over that configuration, and logs of its own. -/
theorem start_up_safe (layout : Layout Place) (fromReader : Source → Except String Configuration)
    (jsonPath logsPath : String) (rest : List String) (d₀ : Disk Place)
    (t : List (Event (@Op.Ans Place))) (s : Sys (Op Place) Op.Ans (Disk Place))
    (hrun : Run (machine layout)
      ⟨d₀, [(start fromReader (jsonPath :: logsPath :: rest)).run.discard]⟩ t s) :
    (∀ place entry, d₀.entries place = some entry → s.shared.entries place = some entry) ∧
    (∀ t₁ e t₂, t = t₁ ++ e :: t₂ → e.call.op.IsGpio →
      ∃ config, ConfigurationRead fromReader jsonPath t₁ config ∧ config.Accepted ∧
        ∀ path ∈ logPaths logsPath config,
          ∃ e' ∈ t₁, e'.call = ⟨.createNew path, some (.ok (layout.place path))⟩) ∧
    ∀ started, Prog.Steps (start fromReader (jsonPath :: logsPath :: rest)).run (history 0 t)
      (.ret (.ok started)) → ConfigurationRead fromReader jsonPath t started.config ∧
        started.Safe layout logsPath d₀ s.shared := by
  obtain ⟨hkept, -⟩ := kept_of_run hrun
  refine ⟨hkept.old, ?_, ?_⟩
  · rintro t₁ e t₂ rfl hgpio
    obtain ⟨m, m', hmoment⟩ := hrun.moment
    obtain ⟨hkept₁, -⟩ := kept_of_run hmoment.before
    obtain ⟨config, haccepted, hpaths⟩ :=
      complete_of_permits (permits_of_step hmoment.before hmoment.step) hgpio
    refine ⟨config, read_of_accepted hmoment.before haccepted, hkept₁.accepted config haccepted,
      fun path hpath => ?_⟩
    rw [← hpaths] at hpath
    obtain ⟨x, hx, rfl⟩ := List.mem_map.mp hpath
    obtain ⟨e', he', -, hcall⟩ := mem_history.mp (mem_created_after hx)
    refine ⟨e', he', ?_⟩
    rw [hcall, hkept₁.placed_of_mem hx]
  · intro started hstarted
    rcases (starts_start rest).steps hstarted fun _ _ _ _ => trivial with ⟨hpanic, -⟩ | hfollows
    · cases hpanic
    · obtain ⟨haccepted, hpaths, hfiles, hlengths⟩ := hfollows started rfl
      have hplaces := hkept.placed
      rw [hpaths, hfiles] at hplaces
      exact ⟨read_of_accepted hrun haccepted, hkept.accepted _ haccepted, hplaces, hlengths,
        hfiles ▸ hkept.nodup, hfiles ▸ hkept.fresh, hfiles ▸ hkept.empty⟩

end Start

end Runs

/-- The components of a path. -/
abbrev Components := List (List Char)

/-- Relative paths on a disk without links.  `create_dir_all` makes the parents too. -/
def Layout.plain : Layout Components where
  place path := (path.toList.splitOn '/').filter (· ≠ [])
  parents path := ((path.toList.splitOn '/').filter (· ≠ [])).inits.tail.dropLast
  directories path := ((path.toList.splitOn '/').filter (· ≠ [])).inits.tail

/-- A stand with two sensors in one group, the second of this label. -/
def twoSensors (label : String) : Configuration :=
  { Configuration.oneDriver [] [] with
    adcCs := [8]
    sensorGroups := [⟨"FAST", 10, 1000, 10,
      [⟨"LC_MAIN", "#ff0000", "lb", none, 0, 1, none, 0, 0⟩,
        ⟨label, "#00ff00", "psi", none, 0, 1, none, 0, 1⟩]⟩] }

/-- An outside world in which everything works. -/
def World.quiet : World := ⟨0, none, 0, [], none⟩

/-- The stand starts on an empty disk, in forty-two operations, with six logs. -/
theorem two_sensors_safe : ∃ t s started,
    Run (machine Layout.plain) ⟨⟨fun _ => none⟩,
      [(start (fun _ => .ok (twoSensors "PT_FEED")) ["config.json", "logs"]).run.discard]⟩ t s ∧
    Prog.Steps (start (fun _ => .ok (twoSensors "PT_FEED")) ["config.json", "logs"]).run (history 0 t)
      (.ret (.ok started)) ∧
    started.logs.places.length = 6 ∧
    started.Safe Layout.plain "logs" ⟨fun _ => none⟩ s.shared := by
  obtain ⟨t, s, hrun, hp⟩ := exists_guardedRun (M := machine Layout.plain) (C := fun _ _ _ => true)
    (G := fun _ _ _ => True) (fun _ _ _ _ => trivial) (List.replicate 42 (0, World.quiet))
    (s := ⟨⟨fun _ => none⟩,
      [(start (fun _ => .ok (twoSensors "PT_FEED")) ["config.json", "logs"]).run.discard]⟩)
    (P := fun t _ => ((start (fun _ => .ok (twoSensors "PT_FEED"))
      ["config.json", "logs"]).run.replay (history 0 t)).any (Prog.returns fun
        | .ok started => started.logs.places.length = 6
        | .error _ => false)) (by decide +kernel)
  obtain ⟨r, hsteps, hr⟩ := exists_returns hp
  cases r with
  | error e => cases hr
  | ok started =>
    exact ⟨t, s, started, hrun.run, hsteps, of_decide_eq_true hr,
      ((start_up_safe Layout.plain _ "config.json" "logs" [] _ t s hrun.run).2.2 started hsteps).2⟩

end Startup

end Slonk
