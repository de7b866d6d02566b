/-
# The arithmetic of the monitors

Before its loop, `sensor_listen` turns three frequencies into periods, and `driver_status_listen`
one; then, for each reading, `sensor_listen` calibrates it, moves the sensor's rolling average and
compares that with the sensor's range.  This file has that arithmetic and nothing else; the loops
around it are in `Listeners.lean`.

Two things can go wrong in it.  A `Duration` divided by zero panics.  `width - 1` at `u32`
underflows for a width of zero: a debug build panics, a release build goes on with `u32::MAX`, and
the `f64` division by the width that follows is a division by zero, which IEEE arithmetic answers
with an infinity or a NaN.  A `Checked` computation returns what the code computes and keeps a list
of such faults beside it.

`Configuration::parse` looks at the frequency of the SPI clock and at no other frequency, and at no
width.  The monitors' arithmetic is free of faults exactly for the configurations that are
`Monitorable`.
-/
import Slonk.Incoming
import Slonk.Config

namespace Slonk

/-! ## 1. Checked computations -/

/-- An operation asked for where it is not defined. -/
inductive Fault
  | divideByZero
  | underflow
  deriving DecidableEq, Repr

/-- A computation, its result, or `none` if it panics, and the faults on the way. -/
structure Checked (α : Type) where
  faults : List Fault
  value : Option α
  deriving DecidableEq, Repr

namespace Checked

variable {α β : Type}

/-- A panic skips the rest. -/
def bind (x : Checked α) (f : α → Checked β) : Checked β :=
  match x.value with
  | some a => ⟨x.faults ++ (f a).faults, (f a).value⟩
  | none => ⟨x.faults, none⟩

instance : Monad Checked where
  pure a := ⟨[], some a⟩
  bind := bind

@[simp] theorem faults_pure (a : α) : (pure a : Checked α).faults = [] := rfl

@[simp] theorem value_pure (a : α) : (pure a : Checked α).value = some a := rfl

theorem bind_of_value {x : Checked α} {a : α} (h : x.value = some a) (f : α → Checked β) :
    x >>= f = ⟨x.faults ++ (f a).faults, (f a).value⟩ := by
  simp only [Bind.bind, Checked.bind, h]

@[simp] theorem pure_bind (a : α) (f : α → Checked β) : (pure a : Checked α) >>= f = f a :=
  bind_of_value rfl f

/-- The faults of the first part are faults of the whole. -/
theorem faults_of_bind {x : Checked α} {f : α → Checked β} (h : (x >>= f).faults = []) :
    x.faults = [] := by
  cases hx : x.value with
  | some a =>
    rw [bind_of_value hx] at h
    exact (List.append_eq_nil_iff.mp h).1
  | none =>
    simp only [Bind.bind, Checked.bind, hx] at h
    exact h

end Checked

/-- `duration / n`, which panics on zero. -/
def Duration.divide (duration : Duration) (n : UInt32) : Checked Duration :=
  if n = 0 then ⟨[.divideByZero], none⟩ else ⟨[], some (duration / n.toNat)⟩

/-- `a - b` at type `u32`. -/
def subtractU32 (profile : Profile) (a b : UInt32) : Checked UInt32 :=
  if b ≤ a then ⟨[], some (a - b)⟩
  else match profile with
    | .debug => ⟨[.underflow], none⟩
    | .release => ⟨[.underflow], some (a - b)⟩

/-- The operations of `f64` that the monitors use, over a type of numbers. -/
class F64 (F : Type) where
  /-- a number of the configuration, or a literal -/
  ofRat : ℚ → F
  /-- `f64::from` -/
  ofU32 : UInt32 → F
  add : F → F → F
  mul : F → F → F
  div : F → F → F
  lt : F → F → Bool
  display : F → String

/-- Exact arithmetic. -/
instance : F64 ℚ where
  ofRat q := q
  ofU32 n := (n.toNat : ℚ)
  add a b := a + b
  mul a b := a * b
  div a b := a / b
  lt a b := decide (a < b)
  display := toString

section Arithmetic

variable {F : Type} [F64 F]

/-- `x / f64::from(n)`.  It never panics. -/
def divideF64 (x : F) (n : UInt32) : Checked F :=
  ⟨if n = 0 then [.divideByZero] else [], some (F64.div x (F64.ofU32 n))⟩

/-! ## 2. The periods -/

/-- `Duration::from_secs(1)` -/
def oneSecond : Duration := 1000000000

/-- `standby_period`, `ignition_period` and `transmission_period`. -/
structure Periods where
  standby : Duration
  ignition : Duration
  transmission : Duration
  deriving DecidableEq, Repr

/-- The periods `sensor_listen` computes for its group. -/
def SensorGroup.periods (group : SensorGroup) : Checked Periods := do
  let standby ← Duration.divide oneSecond group.frequencyStandby
  let ignition ← Duration.divide oneSecond group.frequencyIgnition
  let transmission ← Duration.divide oneSecond group.frequencyTransmission
  pure ⟨standby, ignition, transmission⟩

/-- The `sleep_time` of `driver_status_listen`. -/
def Configuration.statusPeriod (config : Configuration) : Checked Duration :=
  Duration.divide oneSecond config.frequencyStatus

/-! ## 3. The rolling averages -/

/-- "extract the middle value of the range to seed our rolling average" -/
def Sensor.seed (sensor : Sensor) : F :=
  match sensor.range with
  | some (min, max) => F64.div (F64.add (F64.ofRat min) (F64.ofRat max)) (F64.ofRat 2)
  | none => F64.ofRat 0

/-- `calibrated_value`. -/
def Sensor.calibrate (sensor : Sensor) (reading : UInt16) : F :=
  F64.add (F64.mul (F64.ofU32 reading.toUInt32) (F64.ofRat sensor.calibrationSlope))
    (F64.ofRat sensor.calibrationIntercept)

/-- `width`. -/
def Sensor.width (sensor : Sensor) : UInt32 := sensor.rollingAverageWidth.getD 1

/-- `rolling_avg`, from the average so far and the calibrated value. -/
def Sensor.rollingAvg (sensor : Sensor) (profile : Profile) (average calibratedValue : F) :
    Checked F := do
  let weight ← subtractU32 profile sensor.width 1
  divideF64 (F64.add (F64.mul average (F64.ofU32 weight)) calibratedValue) sensor.width

/-- `rolling_averages[idx] = rolling_avg` -/
def setAverage {α : Type} {n : Nat} (averages : Vector α n) (idx : Fin n) (rollingAvg : α) :
    Vector α n :=
  averages.set idx rollingAvg idx.isLt

/-- "if rolling average went out of bounds" -/
def Sensor.outOfBounds (sensor : Sensor) (rollingAvg : F) : Bool :=
  match sensor.range with
  | some (min, max) => F64.lt rollingAvg (F64.ofRat min) || F64.lt (F64.ofRat max) rollingAvg
  | none => false

namespace SensorGroup

variable (group : SensorGroup)

/-- How many sensors the group has. -/
abbrev size : Nat := group.sensors.length

/-- The sensor at an index of the group. -/
abbrev sensor (idx : Fin group.size) : Sensor := group.sensors.get idx

/-- `rolling_averages` before the loop. -/
def seeds : Vector F group.size := Vector.ofFn fun idx => (group.sensor idx).seed

/-- `rolling_averages` after a reading. -/
def average (profile : Profile) (averages : Vector F group.size) (idx : Fin group.size)
    (reading : UInt16) : Checked (Vector F group.size) := do
  let avg ← (group.sensor idx).rollingAvg profile (averages.get idx)
    ((group.sensor idx).calibrate reading)
  pure (setAverage averages idx avg)

/-- `rolling_averages` after a sequence of readings. -/
def averages (profile : Profile) (readings : List (Fin group.size × UInt16)) :
    Checked (Vector F group.size) :=
  readings.foldlM (fun averages r => group.average profile averages r.1 r.2) group.seeds

end SensorGroup

end Arithmetic

/-! ## 4. When it is defined -/

/-- **The arithmetic is defined**: no period and no average, over any sequence of readings, meets
a fault. -/
def ArithmeticDefined (F : Type) [F64 F] (profile : Profile) (config : Configuration) : Prop :=
  config.statusPeriod.faults = [] ∧
    ∀ group ∈ config.sensorGroups, group.periods.faults = [] ∧
      ∀ readings : List (Fin group.size × UInt16),
        (group.averages profile readings : Checked (Vector F group.size)).faults = []

/-- The group's frequencies and widths are not zero. -/
structure SensorGroup.Monitorable (group : SensorGroup) : Prop where
  standby : group.frequencyStandby ≠ 0
  ignition : group.frequencyIgnition ≠ 0
  transmission : group.frequencyTransmission ≠ 0
  width : ∀ sensor ∈ group.sensors, sensor.rollingAverageWidth ≠ some 0

/-- No frequency the monitors divide by is zero, and no width is. -/
structure Configuration.Monitorable (config : Configuration) : Prop where
  status : config.frequencyStatus ≠ 0
  groups : ∀ group ∈ config.sensorGroups, group.Monitorable

theorem Duration.divide_of_ne {n : UInt32} (h : n ≠ 0) (duration : Duration) :
    Duration.divide duration n = ⟨[], some (duration / n.toNat)⟩ := if_neg h

theorem Duration.faults_divide (duration : Duration) (n : UInt32) :
    (Duration.divide duration n).faults = [] ↔ n ≠ 0 := by
  unfold Duration.divide
  split
  · simp [*]
  · simp [*]

/-- **Periods of frequencies that are not zero.** -/
theorem SensorGroup.Monitorable.periods {group : SensorGroup} (h : group.Monitorable) :
    group.periods = ⟨[], some ⟨oneSecond / group.frequencyStandby.toNat,
      oneSecond / group.frequencyIgnition.toNat,
      oneSecond / group.frequencyTransmission.toNat⟩⟩ := by
  unfold SensorGroup.periods
  simp only [Duration.divide_of_ne h.standby, Duration.divide_of_ne h.ignition,
    Duration.divide_of_ne h.transmission]
  rfl

theorem SensorGroup.faults_periods (group : SensorGroup) :
    group.periods.faults = [] ↔ group.frequencyStandby ≠ 0 ∧ group.frequencyIgnition ≠ 0 ∧
      group.frequencyTransmission ≠ 0 := by
  constructor
  · intro h
    have hs := (Duration.faults_divide _ _).mp (Checked.faults_of_bind h)
    unfold SensorGroup.periods at h
    rw [Duration.divide_of_ne hs, Checked.bind_of_value rfl] at h
    have hi := (Duration.faults_divide _ _).mp (Checked.faults_of_bind h)
    rw [Duration.divide_of_ne hi, Checked.bind_of_value rfl] at h
    exact ⟨hs, hi, (Duration.faults_divide _ _).mp (Checked.faults_of_bind h)⟩
  · rintro ⟨hs, hi, ht⟩
    unfold SensorGroup.periods
    rw [Duration.divide_of_ne hs, Duration.divide_of_ne hi, Duration.divide_of_ne ht]
    rfl

theorem Sensor.width_ne_zero {sensor : Sensor} (h : sensor.rollingAverageWidth ≠ some 0) :
    sensor.width ≠ 0 := by
  unfold Sensor.width
  cases hw : sensor.rollingAverageWidth with
  | none => decide
  | some width =>
    rintro rfl
    exact h hw

section Averages

variable {F : Type} [F64 F] {group : SensorGroup}

/-- **A rolling average of a width that is not zero** is the weighted mean, in either build. -/
theorem Sensor.rollingAvg_of_ne {sensor : Sensor} (h : sensor.rollingAverageWidth ≠ some 0)
    (profile : Profile) (average calibratedValue : F) :
    sensor.rollingAvg profile average calibratedValue = ⟨[], some (F64.div
      (F64.add (F64.mul average (F64.ofU32 (sensor.width - 1))) calibratedValue)
      (F64.ofU32 sensor.width))⟩ := by
  have hw := Sensor.width_ne_zero h
  have hle : (1 : UInt32) ≤ sensor.width := by
    rw [UInt32.le_iff_toNat_le]
    have : sensor.width.toNat ≠ 0 := fun h0 => hw (UInt32.toNat_inj.mp h0)
    exact Nat.one_le_iff_ne_zero.mpr this
  unfold Sensor.rollingAvg subtractU32
  rw [if_pos hle, Checked.bind_of_value rfl]
  simp only [divideF64, if_neg hw, List.append_nil]

/-- **A rolling average of width zero** has a fault, in either build. -/
theorem Sensor.rollingAvg_of_zero {sensor : Sensor} (h : sensor.rollingAverageWidth = some 0)
    (profile : Profile) (average calibratedValue : F) :
    (sensor.rollingAvg profile average calibratedValue).faults ≠ [] := by
  have hw : sensor.width = 0 := by
    unfold Sensor.width
    rw [h]
    rfl
  unfold Sensor.rollingAvg
  rw [hw]
  intro hf
  have := Checked.faults_of_bind hf
  cases profile <;> exact absurd this (by decide)

@[simp] theorem get_setAverage {α : Type} {n : Nat} (averages : Vector α n) (idx : Fin n)
    (rollingAvg : α) : (setAverage averages idx rollingAvg).get idx = rollingAvg :=
  Vector.getElem_set_self idx.isLt

/-- A reading moves one average. -/
theorem SensorGroup.average_of_ne {idx : Fin group.size}
    (h : (group.sensor idx).rollingAverageWidth ≠ some 0) (profile : Profile)
    (averages : Vector F group.size) (reading : UInt16) :
    ∃ avg, (group.sensor idx).rollingAvg profile (averages.get idx)
          ((group.sensor idx).calibrate reading) = ⟨[], some avg⟩ ∧
      group.average profile averages idx reading = ⟨[], some (setAverage averages idx avg)⟩ := by
  have hr := Sensor.rollingAvg_of_ne h profile (averages.get idx)
    ((group.sensor idx).calibrate reading)
  refine ⟨_, hr, ?_⟩
  unfold SensorGroup.average
  rw [hr, Checked.bind_of_value rfl]
  rfl

/-- **Averages over any readings**, by induction on the readings. -/
theorem SensorGroup.averages_of_ne
    (h : ∀ sensor ∈ group.sensors, sensor.rollingAverageWidth ≠ some 0) (profile : Profile) :
    ∀ (readings : List (Fin group.size × UInt16)) (start : Vector F group.size),
      ∃ final, readings.foldlM (fun averages r => group.average profile averages r.1 r.2) start
        = ⟨[], some final⟩
  | [], start => ⟨start, rfl⟩
  | (idx, reading) :: readings, start => by
    obtain ⟨avg, -, ha⟩ := SensorGroup.average_of_ne (h _ (List.get_mem _ idx)) profile start reading
    obtain ⟨final, hf⟩ := SensorGroup.averages_of_ne h profile readings (setAverage start idx avg)
    refine ⟨final, ?_⟩
    rw [List.foldlM_cons, ha, Checked.bind_of_value rfl, hf]
    rfl

end Averages

/-- **The monitors' arithmetic is defined exactly for the configurations whose frequencies and
widths are not zero**, in either build and whatever the readings. -/
theorem arithmetic_defined_iff (F : Type) [F64 F] (profile : Profile) (config : Configuration) :
    ArithmeticDefined F profile config ↔ config.Monitorable := by
  constructor
  · rintro ⟨hs, hg⟩
    refine ⟨(Duration.faults_divide _ _).mp hs, fun group hm => ?_⟩
    obtain ⟨hp, ha⟩ := hg group hm
    obtain ⟨hs, hi, ht⟩ := group.faults_periods.mp hp
    refine ⟨hs, hi, ht, fun sensor hsensor hw => ?_⟩
    obtain ⟨idx, rfl⟩ := List.get_of_mem hsensor
    -- one reading of that sensor is enough
    refine Sensor.rollingAvg_of_zero (F := F) hw profile (group.seeds.get idx)
      ((group.sensor idx).calibrate 0) ?_
    exact Checked.faults_of_bind (Checked.faults_of_bind (ha [(idx, 0)]))
  · intro h
    refine ⟨(Duration.faults_divide _ _).mpr h.status, fun group hm => ?_⟩
    have hg := h.groups group hm
    refine ⟨group.faults_periods.mpr ⟨hg.standby, hg.ignition, hg.transmission⟩, ?_⟩
    intro readings
    obtain ⟨final, hf⟩ := SensorGroup.averages_of_ne (F := F) hg.width profile readings group.seeds
    exact congrArg Checked.faults hf

/-- A stand with one driver and one sensor, of these frequencies and this width. -/
def Configuration.oneSensor (frequency : UInt32) (rollingAverageWidth : Option UInt32) :
    Configuration :=
  { Configuration.oneDriver [] [] with
    frequencyStatus := frequency
    adcCs := [7]
    sensorGroups := [⟨"FAST", frequency, frequency, frequency,
      [⟨"LC_MAIN", "#FF0000", "lb", some (0, 100), 0, 1, rollingAverageWidth, 0, 0⟩]⟩] }

/-- **An accepted configuration without defined arithmetic**: a width of zero is accepted. -/
theorem zero_width_accepted :
    Configuration.parse Except.ok (Configuration.oneSensor 10 (some 0))
        = .ok (Configuration.oneSensor 10 (some 0)) ∧
      ¬ ArithmeticDefined ℚ .debug (Configuration.oneSensor 10 (some 0)) ∧
      ¬ ArithmeticDefined ℚ .release (Configuration.oneSensor 10 (some 0)) := by
  have hw : ¬ (Configuration.oneSensor 10 (some 0)).Monitorable := by
    intro h
    exact (h.groups _ List.mem_cons_self).width _ List.mem_cons_self rfl
  refine ⟨by decide +kernel, ?_, ?_⟩
  · rw [arithmetic_defined_iff]
    exact hw
  · rw [arithmetic_defined_iff]
    exact hw

end Slonk
