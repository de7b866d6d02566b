/-
# The configuration and its validation

`config.rs`: the configuration of the controller, and `Configuration::parse`, which deserialises
it and then checks it.  The deserialiser is `serde_json`; it is a parameter here, and everything
after it is translated check by check, in the order of the source.

Numbers are the source's own: `u8` identifiers and pins, `u32` frequencies and times.  A
configuration comes from JSON text, where `NaN` and the infinities cannot be written, so each
`f64` in it is a rational number.

The check of the procedures is worth a second look: it rejects a driver identifier only when it
is *greater* than the number of drivers, whereas the check of the ADCs above it rejects an
identifier *greater than or equal to* the number of ADCs.
-/
import Mathlib.Tactic

namespace Slonk

/-- `std::time::Duration`, in nanoseconds. -/
abbrev Duration := Nat

/-- `Duration::from_millis`. -/
def Duration.fromMillis (millis : UInt32) : Duration := millis.toNat * 1000000

/-- `Driver`. -/
structure Driver where
  label : String
  labelActuate : String
  labelDeactuate : String
  pin : UInt8
  isProtected : Bool
  deriving DecidableEq, Repr

/-- `Action`: one step of an ignition or shutoff sequence. -/
inductive Action
  | actuate (driverId : UInt8) (value : Bool)
  | sleep (duration : Duration)
  deriving DecidableEq, Repr

/-- `Sensor`. -/
structure Sensor where
  label : String
  color : String
  units : String
  range : Option (ℚ × ℚ)
  calibrationIntercept : ℚ
  calibrationSlope : ℚ
  rollingAverageWidth : Option UInt32
  adc : UInt8
  channel : UInt8
  deriving DecidableEq, Repr

/-- `SensorGroup`. -/
structure SensorGroup where
  label : String
  frequencyStandby : UInt32
  frequencyIgnition : UInt32
  frequencyTransmission : UInt32
  sensors : List Sensor
  deriving DecidableEq, Repr

/-- `Configuration`. -/
structure Configuration where
  frequencyStatus : UInt32
  logBufferSize : Nat
  sensorGroups : List SensorGroup
  drivers : List Driver
  preIgniteTime : UInt32
  postIgniteTime : UInt32
  ignitionSequence : List Action
  estopSequence : List Action
  spiMosi : UInt8
  spiMiso : UInt8
  spiClk : UInt8
  spiFrequencyClk : UInt32
  adcCs : List UInt8
  pinHeartbeat : UInt8
  deriving DecidableEq, Repr

/-- `config::Error`. -/
inductive ConfigError
  | malformed (cause : String)
  | noSuchAdc (adc : UInt8)
  | badChannel (channel : UInt8)
  | clockTooSlow
  | noSuchDriver (driverId : UInt8)
  | duplicatePin (pin : UInt8)
  | reservedPin (pin : UInt8)
  deriving DecidableEq, Repr

/-- `Mcp3208::SPI_MIN_FREQUENCY`. -/
def spiMinFrequency : Nat := 10000

/-- `is_legal`. -/
def isLegal (pin : UInt8) : Bool := 1 < pin && pin ≤ 27

namespace Configuration

/-! ## 1. The checks, in the order of the source -/

/-- "check that SPI frequency is correct" -/
def checkClock (config : Configuration) : Except ConfigError Unit :=
  if config.spiFrequencyClk.toNat < spiMinFrequency then throw .clockTooSlow else pure ()

/-- "check that each sensor has an ADC associated with it" -/
def checkSensors (config : Configuration) : Except ConfigError Unit :=
  config.sensorGroups.forM fun group => group.sensors.forM fun sensor =>
    if sensor.adc.toNat ≥ config.adcCs.length then throw (.noSuchAdc sensor.adc)
    else if sensor.channel ≥ 8 then throw (.badChannel sensor.channel)
    else pure ()

/-- "check that actuations correspond to real drivers" -/
def checkActuations (config : Configuration) : Except ConfigError Unit :=
  [config.ignitionSequence, config.estopSequence].forM fun procedure =>
    procedure.forM fun step =>
      match step with
      | .actuate driverId _ =>
        if driverId.toNat > config.drivers.length then throw (.noSuchDriver driverId)
        else pure ()
      | .sleep _ => pure ()

/-- The pins that `checkPins` looks at, in its order. -/
def pins (config : Configuration) : List UInt8 :=
  config.drivers.map (·.pin) ++ [config.spiMosi, config.spiMiso, config.spiClk] ++ config.adcCs

/-- "check that no pins are reused in the configuration", and that none is reserved.  The set
`pins_used` is the list of the pins seen so far. -/
def checkPins (config : Configuration) : Except ConfigError Unit :=
  discard <| config.pins.foldlM (fun pinsUsed pin =>
    if !isLegal pin then throw (.reservedPin pin)
    else if pinsUsed.contains pin then throw (.duplicatePin pin)
    else pure (pin :: pinsUsed)) []

/-- Everything `Configuration::parse` does after deserialising. -/
def validate (config : Configuration) : Except ConfigError Unit := do
  config.checkClock
  config.checkSensors
  config.checkActuations
  config.checkPins

/-- `Configuration::parse`, over the deserialiser `fromReader`. -/
def parse {Source : Type} (fromReader : Source → Except String Configuration)
    (source : Source) : Except ConfigError Configuration := do
  let config ← (fromReader source).mapError .malformed
  config.validate
  pure config

/-- `Configuration::parse` returns this configuration for some source and deserialiser. -/
def Accepted (config : Configuration) : Prop := config.validate = .ok ()

/-! ## 2. What acceptance means -/

theorem bind_ok_iff {ε α β : Type} {x : Except ε α} {f : α → Except ε β} {b : β} :
    (x >>= f) = .ok b ↔ ∃ a, x = .ok a ∧ f a = .ok b := by
  cases x with
  | error e => simp [bind, Except.bind]
  | ok a => simp [bind, Except.bind]

/-- A loop that may fail gets through iff every turn does. -/
theorem forM_ok_iff {ε α : Type} (f : α → Except ε Unit) (xs : List α) :
    xs.forM f = .ok () ↔ ∀ x ∈ xs, f x = .ok () := by
  induction xs with
  | nil => simp [List.forM, pure, Except.pure]
  | cons x xs ih =>
    have hcons : (x :: xs).forM f = (f x >>= fun _ => xs.forM f) := rfl
    rw [hcons, bind_ok_iff, List.forall_mem_cons, ih]
    exact ⟨fun ⟨_, hx, hxs⟩ => ⟨hx, hxs⟩, fun ⟨hx, hxs⟩ => ⟨(), hx, hxs⟩⟩

/-- **`parse` returns a configuration only after it passed every check.** -/
theorem accepted_of_parse {Source : Type} {fromReader : Source → Except String Configuration}
    {source : Source} {config : Configuration} (h : parse fromReader source = .ok config) :
    fromReader source = .ok config ∧ config.Accepted := by
  obtain ⟨c, hc, h⟩ := bind_ok_iff.mp h
  obtain ⟨u, hu, h⟩ := bind_ok_iff.mp h
  obtain rfl : c = config := by simpa [pure, Except.pure] using h
  refine ⟨?_, hu⟩
  cases hf : fromReader source with
  | error e => rw [hf] at hc; cases hc
  | ok c' => rw [hf] at hc; exact congrArg _ (Except.ok.inj hc)

theorem Accepted.checks {config : Configuration} (h : config.Accepted) :
    config.checkClock = .ok () ∧ config.checkSensors = .ok () ∧
      config.checkActuations = .ok () ∧ config.checkPins = .ok () := by
  obtain ⟨_, h₁, h⟩ := bind_ok_iff.mp h
  obtain ⟨_, h₂, h⟩ := bind_ok_iff.mp h
  obtain ⟨_, h₃, h₄⟩ := bind_ok_iff.mp h
  exact ⟨h₁, h₂, h₃, h₄⟩

/-- **What the procedure check establishes**: every driver identifier in either sequence is at
most the number of drivers.  It does not say "below". -/
theorem Accepted.driverId_le {config : Configuration} (h : config.Accepted) {driverId : UInt8}
    {value : Bool} (hm : .actuate driverId value ∈ config.ignitionSequence ++ config.estopSequence) :
    driverId.toNat ≤ config.drivers.length := by
  have hc := h.checks.2.2.1
  rw [checkActuations, forM_ok_iff] at hc
  have hstep : ∀ procedure ∈ [config.ignitionSequence, config.estopSequence],
      .actuate driverId value ∈ procedure → driverId.toNat ≤ config.drivers.length := by
    intro procedure hp hm
    have := (forM_ok_iff _ _).mp (hc procedure hp) _ hm
    by_contra hlt
    simp only [gt_iff_lt, if_pos (Nat.lt_of_not_le hlt)] at this
    cases this
  rcases List.mem_append.mp hm with hm | hm
  · exact hstep _ (by simp) hm
  · exact hstep _ (by simp) hm

/-- **What the sensor check establishes**: every sensor has an ADC, and a channel of it. -/
theorem Accepted.sensor_valid {config : Configuration} (h : config.Accepted) {group : SensorGroup}
    (hgroup : group ∈ config.sensorGroups) {sensor : Sensor} (hsensor : sensor ∈ group.sensors) :
    sensor.adc.toNat < config.adcCs.length ∧ sensor.channel < 8 := by
  have hc := h.checks.2.1
  rw [checkSensors, forM_ok_iff] at hc
  have := (forM_ok_iff _ _).mp (hc group hgroup) sensor hsensor
  split at this
  · cases this
  · rename_i hadc
    split at this
    · cases this
    · rename_i hchannel
      exact ⟨Nat.not_le.mp hadc, UInt8.not_le.mp hchannel⟩

/-! ## 3. A small test stand -/

/-- A stand with one driver and no sensors, and the given procedures. -/
def oneDriver (ignitionSequence estopSequence : List Action) : Configuration where
  frequencyStatus := 10
  logBufferSize := 256
  sensorGroups := []
  drivers := [⟨"OXI_FILL", "Open", "Close", 21, false⟩]
  preIgniteTime := 500
  postIgniteTime := 5000
  ignitionSequence := ignitionSequence
  estopSequence := estopSequence
  spiMosi := 10
  spiMiso := 9
  spiClk := 11
  spiFrequencyClk := 50000
  adcCs := []
  pinHeartbeat := 20

end Configuration

end Slonk
