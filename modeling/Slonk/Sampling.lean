/-
# What a sensor monitor has done

The variables of `sensor_listen` are its own: rolling averages, queues, the readings not yet sent.
This file says what they are in terms of the calls the thread has made, so that a statement about a
run need not look into the program.

* A `Record` is kept of the calls: the readings that succeeded, as `Sample`s, the stops, the readings
  of the clock, what was handed to `send` and what to `write_sensor_log`.
* `Tracks` relates the variables to the record: an average is that of the sensor's samples so far
  (`averageAfter`), a queue is what of them has not been logged.
* `recording` says what the record allows the thread to do next: to start a stop only where the
  average is out of its range, to pass the check of the transmission only when it is due, and to send
  only the latest samples.
* `listenFor` and `sampledFor` are the beginnings of `sensor_listen` that end between two turns of the
  loop, and between two sensors of a turn (`sensorListen_add`, `sensorListen_sampled`).

Nothing is assumed of the answers: any lock may be poisoned, anything may fail, and the configuration
need not be one that `parse` accepts.
-/
import Slonk.Listeners

namespace Slonk

open Concurrency

/-! ## 1. The record -/

/-- A reading that succeeded. -/
structure Sample where
  /-- how many there were before it -/
  number : Nat
  sensor : Nat
  reading : UInt16
  time : Nat
  deriving DecidableEq, Repr

/-- A call of `write_sensor_log`. -/
structure Batch where
  file : LogFile
  rows : List String
  written : Bool
  deriving DecidableEq, Repr

/-- What a monitor has done. -/
structure Record where
  /-- the sensor it is at: the guards of ADCs it has dropped since it looked at the state -/
  sensor : Nat
  /-- a reading whose time has not been read off the clock -/
  reading : Option UInt16
  samples : List Sample
  /-- how many samples are over: their ADC has been given back -/
  checked : Nat
  /-- the numbers of the samples at which a stop was started -/
  stops : List Nat
  /-- the readings of the clock -/
  times : List Nat
  /-- the times at which the check of the transmission was passed: the last before `has_target` -/
  passes : List Nat
  /-- the samples since the check was last passed -/
  fresh : List Sample
  /-- the samples before that, back to the time before, until they are handed to `send` -/
  due : List Sample
  /-- the samples handed to `send` -/
  handed : List Sample
  /-- the calls of `write_sensor_log` -/
  batches : List Batch
  /-- the sensors there was a warning about, that their data could not be written -/
  warned : List String
  deriving DecidableEq, Repr

namespace Record

/-- Nothing has been done. -/
def start : Record := ⟨0, none, [], 0, [], [], [], [], [], [], [], []⟩

/-- The clock is read.  After a reading that succeeded, that is the time of the sample. -/
def timed (γ : Record) (time : Nat) : Record :=
  match γ.reading with
  | none => { γ with times := γ.times ++ [time] }
  | some reading =>
    { γ with
      times := γ.times ++ [time]
      reading := none
      samples := γ.samples ++ [⟨γ.samples.length, γ.sensor, reading, time⟩]
      fresh := γ.fresh ++ [⟨γ.samples.length, γ.sensor, reading, time⟩] }

/-- The latest sample of each sensor that has one, in the order of the sensors. -/
def latest (size : Nat) (samples : List Sample) : List Sample :=
  (List.range size).filterMap fun idx => (samples.filter (·.sensor = idx)).getLast?

/-- A call is made.  The group has so many sensors. -/
def next (size : Nat) (γ : Record) : Call Act.Ans → Record
  | ⟨.status, _⟩ => { γ with sensor := 0 }
  | ⟨.readAdc _ _, some (.ok reading)⟩ => { γ with reading := some reading }
  | ⟨.op .now, some time⟩ => γ.timed time
  | ⟨.spawnStop, _⟩ =>
    { γ with stops := γ.stops ++ (γ.samples.getLast?.map Sample.number).toList }
  | ⟨.release (.adc _), _⟩ =>
    { γ with sensor := γ.sensor + 1, checked := γ.samples.length }
  | ⟨.acquire .dashChannel .shared, _⟩ =>
    { γ with passes := γ.passes ++ γ.times.getLast?.toList, due := γ.fresh, fresh := [] }
  | ⟨.op (.send _), _⟩ => { γ with handed := γ.handed ++ latest size γ.due, due := [] }
  | ⟨.writeSensorLog file rows, some result⟩ =>
    { γ with batches := γ.batches ++ [⟨file, rows, result.isOk⟩] }
  | ⟨.op (.userLog .warn (.unwrittenSensor label)), _⟩ => { γ with warned := γ.warned ++ [label] }
  | _ => γ

/-- The samples of a sensor. -/
def ofSensor (γ : Record) (idx : Nat) : List Sample := γ.samples.filter (·.sensor = idx)

/-- What was read from a sensor, up to the first `m` samples of all. -/
def upTo (γ : Record) (m idx : Nat) : List UInt16 :=
  ((γ.samples.take m).filter (·.sensor = idx)).map Sample.reading

/-- The batches of a file. -/
def batchesOf (γ : Record) (file : LogFile) : List Batch := γ.batches.filter (·.file = file)

end Record

/-- The record of these calls. -/
def record (size : Nat) (h : List (Call Act.Ans)) : Record := h.foldl (Record.next size) .start

/-- The entry of a sample in a `SensorValue` message. -/
def Sample.toReading (s : Sample) : SensorReading := ⟨UInt8.ofNat s.sensor, s.reading, s.time⟩

section Arithmetic

variable {F : Type} [F64 F]

/-- The element of `most_recent_readings` a sample becomes. -/
def Sample.entry (s : Sample) (sensor : Sensor) : Nat × UInt16 × F :=
  (s.time, s.reading, sensor.calibrate s.reading)

/-- The rolling average after these readings; `none` if one of its operations has panicked. -/
def Sensor.averageAfter (sensor : Sensor) (profile : Profile) (readings : List UInt16) : Option F :=
  readings.foldlM (fun average reading =>
    (sensor.rollingAvg profile average (sensor.calibrate reading)).value) sensor.seed

/-- The average of a sensor after its samples among the first `m` is out of its range, or it is
not. -/
def Record.Judges (F : Type) [F64 F] (γ : Record) (profile : Profile) (group : SensorGroup) (m : Nat)
    (idx : Fin group.size) (out : Bool) : Prop :=
  ∃ avg : F, (group.sensor idx).averageAfter profile (γ.upTo m idx) = some avg ∧
    (group.sensor idx).outOfBounds avg = out

end Arithmetic

/-! ## 2. What the record allows -/

section Recording

variable (F : Type) [F64 F] (profile : Profile) (group : SensorGroup) (groupId : UInt8)
  (transmissionPeriod : Duration)

/-- A stop follows a sample that moves an average out of its range. -/
def Record.Alarming (γ : Record) : Prop :=
  ∃ s idx, γ.samples.getLast? = some s ∧ s.sensor = Fin.val idx ∧
    γ.Judges F profile group γ.samples.length idx true

/-- The ADC is given back after at most one sample; and if that moves an average out of its range,
after a stop. -/
def Record.Over (γ : Record) : Prop :=
  γ.samples.length = γ.checked ∨ γ.samples.length = γ.checked + 1 ∧
    ∃ s idx out, γ.samples.getLast? = some s ∧ s.sensor = Fin.val idx ∧
      γ.Judges F profile group γ.samples.length idx out ∧ (out = true → γ.checked ∈ γ.stops)

/-- On a clock that is never set back, more than a period has passed since each time the check was
passed. -/
def Record.Due (γ : Record) : Prop :=
  γ.times.Pairwise (· ≤ ·) →
    ∀ time ∈ γ.passes, ∀ time' ∈ γ.times.getLast?, time + transmissionPeriod < time'

/-- The sensor it is at is read. -/
def Record.At (γ : Record) (adc channel : UInt8) : Prop :=
  ∃ idx, γ.sensor = Fin.val idx ∧ adc = (group.sensor idx).adc ∧ channel = (group.sensor idx).channel

/-- What the record allows. -/
def Record.Permits (γ : Record) : Act → Prop
  | .readAdc adc channel => γ.At group adc channel
  | .spawnStop => γ.Alarming F profile group
  | .release (.adc _) => γ.Over F profile group
  | .acquire .dashChannel .shared => γ.Due transmissionPeriod
  | .op (.send message) =>
    message = .sensorValue groupId ((Record.latest group.size γ.due).map Sample.toReading)
  | _ => True

/-- The record of a thread, and what it allows. -/
def recording : Protocol Act Act.Ans Record where
  permits γ := γ.Permits F profile group groupId transmissionPeriod
  aborts _ := True
  next := Record.next group.size

end Recording

/-! ## 3. The variables -/

section Variables

variable {F : Type} [F64 F] (config : Configuration) (profile : Profile) (group : SensorGroup)
  (logFiles : List LogFile)

/-- A queue holds the samples of its sensor that are in no batch.  The batches are of the size of the
buffer, if it has one. -/
def Record.Queued (γ : Record) (sensor : Sensor) (idx : Nat) (file : LogFile)
    (queue : List (Nat × UInt16 × F)) : Prop :=
  ∃ (parts : List (List Sample)) (rest : List Sample), γ.ofSensor idx = parts.flatten ++ rest ∧
    (γ.batchesOf file).map Batch.rows
      = parts.map (·.map fun s => sensorRow (s.entry sensor : Nat × UInt16 × F)) ∧
    queue = rest.map (·.entry sensor) ∧
    ∀ part ∈ parts, config.logBufferSize ≠ 0 → part.length = config.logBufferSize

/-- The label is that of a sensor with this file. -/
def Labels (file : LogFile) (label : String) : Prop :=
  ∃ idx : Fin group.size, logFiles[idx.val]? = some file ∧ label = (group.sensor idx).label

/-- **The variables are those of the record.** -/
structure Tracks (locals : Locals F group.size) (γ : Record) : Prop where
  averages : ∀ idx, (group.sensor idx).averageAfter profile ((γ.ofSensor idx).map Sample.reading)
    = some (locals.rollingAverages.get idx)
  fresh : ∀ idx, locals.transmissionReadings.get idx
    = (γ.fresh.filter (·.sensor = idx.val)).getLast?.map fun s => (s.time, s.reading)
  /-- no file is that of two sensors -/
  queues : logFiles.Nodup → ∀ idx file, logFiles[idx.val]? = some file →
    γ.Queued config (group.sensor idx) idx file (locals.mostRecentReadings.get idx)
  sent : γ.times.Pairwise (· ≤ ·) → ∀ time ∈ γ.passes, time ≤ locals.lastTransmissionTime
  warned : List.Forall₂ (fun batch => Labels group logFiles batch.file)
    (γ.batches.filter (!·.written)) γ.warned

/-- Between two sensors: there is nothing in hand. -/
structure Rests (locals : Locals F group.size) (γ : Record) : Prop
    extends Tracks config profile group logFiles locals γ where
  reading : γ.reading = none
  checked : γ.checked = γ.samples.length

/-- No queue is longer than the buffer, and where there must be room for one more there is. -/
def Locals.Fits {n : Nat} (locals : Locals F n) (room : Fin n → Prop) : Prop :=
  ∀ idx, (locals.mostRecentReadings.get idx).length ≤ max 1 config.logBufferSize ∧
    (room idx → (locals.mostRecentReadings.get idx).length < max 1 config.logBufferSize)

end Variables

/-! ## 4. One operation -/

variable {F : Type} [F64 F] {config : Configuration} {profile : Profile} {group : SensorGroup}
  {groupId : UInt8} {logFiles : List LogFile} {period : Duration} {γ : Record} {α β : Type}

/-- The operations that are not recorded. -/
def Act.Silent : Act → Prop
  | acquire .dashChannel .shared | release (.adc _) | status | readAdc _ _ | spawnStop => False
  | writeSensorLog _ _ | op .now | op (.send _) | op (.userLog .warn (.unwrittenSensor _)) => False
  | _ => True

theorem Act.Silent.next {a : Act} (ha : a.Silent) (size : Nat) (γ : Record) (x : Option a.Ans) :
    γ.next size ⟨a, x⟩ = γ := by
  unfold Record.next
  split
  all_goals first
    | rfl
    | rename_i h; cases h; exact False.elim ha

theorem Act.Silent.permits {a : Act} (ha : a.Silent) :
    γ.Permits F profile group groupId period a := by
  cases a with
  | readAdc => exact False.elim ha
  | spawnStop => exact False.elim ha
  | release l => cases l <;> trivial
  | acquire l m => cases l <;> cases m <;> trivial
  | op o => cases o <;> trivial
  | _ => trivial

/-- The program does what the record allows, from the record `γ` on. -/
abbrev Recorded (F : Type) [F64 F] (profile : Profile) (group : SensorGroup) (groupId : UInt8)
    (period : Duration) (γ : Record) (p : Prog Act Act.Ans α) (Q : α → Record → Prop) : Prop :=
  p.Follows (recording F profile group groupId period) (fun _ _ => True) γ Q

/-- How a part ends: as `Q` says, or with an error, if it may. -/
def ComesTo (mayFail : Prop) (Q : α → Record → Prop) (r : Except RunError α) (γ : Record) : Prop :=
  match r with
  | .ok a => Q a γ
  | .error _ => mayFail

theorem recorded_bind {E E' : Prop} {p : Routine RunError α} {f : α → Routine RunError β}
    {P : α → Record → Prop} {Q : β → Record → Prop}
    (hp : Recorded F profile group groupId period γ p.run (ComesTo E P))
    (hf : ∀ a γ', P a γ' → Recorded F profile group groupId period γ' (f a).run (ComesTo E' Q))
    (hE : E → E' := by trivial) :
    Recorded F profile group groupId period γ (p >>= f).run (ComesTo E' Q) :=
  Fallible.follows_bind hp hf fun _ _ => hE

theorem recorded_silent {a : Act} (ha : a.Silent) {k : a.Ans → Prog Act Act.Ans α}
    {Q : α → Record → Prop} (hk : ∀ x, Recorded F profile group groupId period γ (k x) Q) :
    Recorded F profile group groupId period γ (.op a k) Q := by
  refine ⟨ha.permits, fun x _ => ?_⟩
  have hnext : (recording F profile group groupId period).next γ ⟨a, some x⟩ = γ := ha.next _ γ _
  rw [hnext]
  exact hk x

/-- A guard that is not recorded. -/
theorem recorded_guarded {l : Lock} {mode : Mode} {p : Bool → Prog Act Act.Ans α}
    {Q : α → Record → Prop} (hacquire : (Act.acquire l mode).Silent)
    (hrelease : (Act.release l).Silent)
    (hp : ∀ poisoned, Recorded F profile group groupId period γ (p poisoned) Q) :
    Recorded F profile group groupId period γ (Prog.guarded (.acquire l mode) p (.release l)) Q := by
  refine recorded_silent hacquire fun poisoned => Prog.Follows.bind ((hp poisoned).mono ?_)
  exact fun r γ' hr => recorded_silent hrelease fun _ => hr

/-- **The clock is read.** -/
theorem recorded_now : Recorded F profile group groupId period γ Routine.now.run
    (ComesTo False fun time γ' => γ' = γ.timed time) :=
  ⟨trivial, fun _ _ => rfl⟩

/-- **The state is looked at.** -/
theorem recorded_status : Recorded F profile group groupId period γ Routine.status.run
    (ComesTo True fun _ γ' => γ' = { γ with sensor := 0 }) := by
  refine recorded_guarded trivial trivial fun _ => ⟨trivial, fun r _ => ?_⟩
  cases r with
  | ok state => rfl
  | error e => trivial

/-- A message of the user log, whether it is written or not. -/
theorem recorded_note (guards : List Lock) (level : LogLevel) (message : UserMessage) {γ' : Record}
    (hnext : ∀ r, γ.next group.size ⟨.op (.userLog level message), some r⟩ = γ') :
    Recorded F profile group groupId period γ (Routine.note guards level message).run
      (ComesTo False fun _ γ'' => γ'' = γ') := by
  have hwrite : Recorded F profile group groupId period γ (writeLog guards level message)
      fun _ γ'' => γ'' = γ' := by
    refine recorded_guarded trivial trivial fun poisoned => ?_
    cases poisoned with
    | true => exact ⟨trivial, fun x => nomatch x⟩
    | false => exact ⟨trivial, fun r _ => hnext r⟩
  exact Prog.Follows.bind (hwrite.mono fun _ _ h => h)

/-! ## 5. A sensor -/

theorem get_set {α : Type} {n : Nat} (v : Vector α n) (i j : Fin n) (a : α) :
    (v.set i a i.isLt).get j = if i = j then a else v.get j := by
  split
  · rename_i heq
    subst heq
    exact Vector.getElem_set_self i.isLt
  · exact Vector.getElem_set_ne i.isLt j.isLt (by omega)

theorem get_setAverage_eq {α : Type} {n : Nat} (averages : Vector α n) (i j : Fin n) (a : α) :
    (setAverage averages i a).get j = if i = j then a else averages.get j :=
  get_set averages i j a

/-- One more reading. -/
theorem Sensor.averageAfter_concat (sensor : Sensor) (profile : Profile) (readings : List UInt16)
    (reading : UInt16) :
    (sensor.averageAfter profile (readings ++ [reading]) : Option F)
      = (sensor.averageAfter profile readings).bind fun average =>
        (sensor.rollingAvg profile average (sensor.calibrate reading)).value := by
  simp [Sensor.averageAfter, List.foldlM_append]

/-- What is read off a sensor is read there. -/
theorem recorded_readAdc {idx : Fin group.size} (hsensor : γ.sensor = idx) :
    Recorded F profile group groupId period γ (readAdc (group.sensor idx)).run
      (ComesTo False fun result γ' => match result with
        | .ok reading => γ' = { γ with reading := some reading }
        | .error _ => γ' = γ) := by
  unfold readAdc
  split
  · exact ⟨trivial, fun x => nomatch x⟩
  · refine recorded_guarded trivial trivial fun poisoned => ?_
    cases poisoned with
    | true => rfl
    | false =>
      refine ⟨⟨idx, hsensor, rfl, rfl⟩, fun result _ => ?_⟩
      cases result with
      | ok reading => rfl
      | error e => rfl

/-- The stop, if the average is out of its range. -/
def Record.stopped (γ : Record) (out : Bool) : Record :=
  if out then { γ with stops := γ.stops ++ (γ.samples.getLast?.map Sample.number).toList } else γ

theorem recorded_checkRange (sensor : Sensor) (avg : F)
    (halarming : sensor.outOfBounds avg = true → γ.Alarming F profile group) :
    Recorded F profile group groupId period γ (checkRange sensor avg).run
      (ComesTo False fun _ γ' => γ' = γ.stopped (sensor.outOfBounds avg)) := by
  unfold checkRange Record.stopped
  split
  · rename_i hout
    refine recorded_bind (recorded_note _ _ _ fun _ => rfl) ?_
    rintro _ _ rfl
    exact ⟨halarming hout, fun _ _ => rfl⟩
  · exact rfl

/-- A sample of the sensor the record is at. -/
abbrev Record.sample (γ : Record) (reading : UInt16) (time : Nat) : Sample :=
  ⟨γ.samples.length, γ.sensor, reading, time⟩

/-- The record with a sample more. -/
def Record.sampled (γ : Record) (reading : UInt16) (time : Nat) : Record :=
  { γ with
    times := γ.times ++ [time]
    samples := γ.samples ++ [γ.sample reading time]
    fresh := γ.fresh ++ [γ.sample reading time] }

/-- A list with one more, of one sensor. -/
theorem filter_concat_sample (samples : List Sample) (s : Sample) (idx : Nat) :
    (samples ++ [s]).filter (·.sensor = idx)
      = if s.sensor = idx then samples.filter (·.sensor = idx) ++ [s]
        else samples.filter (·.sensor = idx) := by
  rw [List.filter_append]
  split <;> simp [*]

/-- **A sample keeps the variables with the record.** -/
theorem Tracks.sampled {locals : Locals F group.size} {idx : Fin group.size} {reading : UInt16}
    {avg : F} (h : Tracks config profile group logFiles locals γ) (hsensor : γ.sensor = idx)
    (time : Nat)
    (havg : ((group.sensor idx).rollingAvg profile (locals.rollingAverages.get idx)
      ((group.sensor idx).calibrate reading)).value = some avg) :
    Tracks config profile group logFiles
      { locals.record idx time reading ((group.sensor idx).calibrate reading) with
        rollingAverages := setAverage locals.rollingAverages idx avg } (γ.sampled reading time) where
  averages j := by
    have := h.averages j
    simp only [Record.sampled, Record.ofSensor, filter_concat_sample, get_setAverage_eq,
      hsensor, Fin.val_inj] at this ⊢
    split
    · subst_vars
      rw [List.map_append, List.map_singleton, Sensor.averageAfter_concat, this]
      exact havg
    · exact this
  fresh j := by
    have := h.fresh j
    simp only [Record.sampled, Locals.record, filter_concat_sample, get_set, hsensor,
      Fin.val_inj] at this ⊢
    split
    · simp
    · exact this
  queues hnodup j file hfile := by
    obtain ⟨parts, rest, hof, hrows, hqueue, hlength⟩ := h.queues hnodup j file hfile
    simp only [Record.Queued, Record.sampled, Locals.record, Record.ofSensor, filter_concat_sample,
      get_set, hsensor, Fin.val_inj] at hof ⊢
    split
    · subst_vars
      refine ⟨parts, rest ++ [_], by rw [hof, List.append_assoc], hrows, ?_, hlength⟩
      rw [hqueue, List.map_append]
      rfl
    · exact ⟨parts, rest, hof, hrows, hqueue, hlength⟩
  sent hsorted := h.sent (List.pairwise_append.mp hsorted).1
  warned := h.warned

theorem upTo_length (γ : Record) (idx : Nat) :
    γ.upTo γ.samples.length idx = (γ.ofSensor idx).map Sample.reading := by
  rw [Record.upTo, List.take_length, Record.ofSensor]

/-- Where a sensor is in hand, and the others of the round are still to come. -/
structure InHand (config : Configuration) (profile : Profile) (group : SensorGroup)
    (logFiles : List LogFile) (idx : Fin group.size) (rest : List (Fin group.size))
    (locals : Locals F group.size) (γ : Record) : Prop where
  tracks : Tracks config profile group logFiles locals γ
  reading : γ.reading = none
  sensor : γ.sensor = idx
  checked : γ.Over F profile group
  fits : locals.Fits config (· ∈ rest)

/-- Before the sensor is read. -/
theorem Rests.inHand {locals : Locals F group.size} {idx : Fin group.size}
    {rest : List (Fin group.size)} (h : Rests config profile group logFiles locals γ)
    (hsensor : γ.sensor = idx) (hfits : locals.Fits config (· ∈ idx :: rest)) :
    InHand config profile group logFiles idx rest locals γ where
  tracks := h.toTracks
  reading := h.reading
  sensor := hsensor
  checked := Or.inl h.checked.symm
  fits j := ⟨(hfits j).1, fun hj => (hfits j).2 (List.mem_cons_of_mem _ hj)⟩

/-- After a stop, or where none is needed. -/
theorem Tracks.stopped {locals : Locals F group.size} {idx : Fin group.size}
    {rest : List (Fin group.size)} {s : Sample} {out : Bool}
    (h : Tracks config profile group logFiles locals γ) (hreading : γ.reading = none)
    (hsensor : γ.sensor = idx) (hlast : γ.samples.getLast? = some s) (hs : s.sensor = idx)
    (hnumber : s.number = γ.checked) (hchecked : γ.samples.length = γ.checked + 1)
    (hjudges : γ.Judges F profile group γ.samples.length idx out)
    (hfits : locals.Fits config (· ∈ rest)) :
    InHand config profile group logFiles idx rest locals (γ.stopped out) := by
  cases out with
  | false =>
    exact ⟨h, hreading, hsensor, Or.inr ⟨hchecked, s, idx, _, hlast, hs, hjudges, nofun⟩, hfits⟩
  | true =>
    have hmem : γ.checked ∈ (γ.stopped true).stops := by
      simp [Record.stopped, hlast, hnumber]
    exact ⟨{ h with }, hreading, hsensor,
      Or.inr ⟨hchecked, s, idx, _, hlast, hs, hjudges, fun _ => hmem⟩, hfits⟩

omit [F64 F] in
/-- A queue with one more in it. -/
theorem Locals.Fits.record {n : Nat} {locals : Locals F n} {idx : Fin n} {rest : List (Fin n)}
    (hfits : locals.Fits config (· ∈ idx :: rest)) (hidx : idx ∉ rest) (time : Nat)
    (reading : UInt16) (calibratedValue : F) (averages : Vector F n) :
    Locals.Fits config { locals.record idx time reading calibratedValue with
      rollingAverages := averages } (· ∈ rest) := by
  intro j
  obtain ⟨hle, hlt⟩ := hfits j
  simp only [Locals.record, get_set]
  split
  · rename_i heq
    subst heq
    have := hlt List.mem_cons_self
    refine ⟨?_, fun hj => absurd hj hidx⟩
    rw [List.length_append, List.length_singleton]
    omega
  · exact ⟨hle, fun hj => hlt (List.mem_cons_of_mem _ hj)⟩

/-- **A sensor is read and checked**, when its ADC is locked. -/
theorem recorded_sampleLocked {locals : Locals F group.size} {idx : Fin group.size}
    {rest : List (Fin group.size)} (h : Rests config profile group logFiles locals γ)
    (hsensor : γ.sensor = idx) (hfits : locals.Fits config (· ∈ idx :: rest)) (hidx : idx ∉ rest) :
    Recorded F profile group groupId period γ (sampleLocked profile group idx locals).run
      (ComesTo False (InHand config profile group logFiles idx rest)) := by
  refine recorded_bind (recorded_readAdc hsensor) ?_
  rintro (e | reading) γ' hγ'
  · obtain rfl : γ' = γ := hγ'
    refine recorded_bind (recorded_note _ _ _ fun _ => rfl) ?_
    rintro _ _ rfl
    exact h.inHand hsensor hfits
  · obtain rfl : γ' = { γ with reading := some reading } := hγ'
    refine recorded_bind recorded_now ?_
    rintro time γ' hγ'
    obtain rfl : γ' = γ.sampled reading time := by
      rw [hγ', Record.timed, Record.sampled, h.reading]
    dsimp only
    split
    · exact ⟨trivial, fun x => nomatch x⟩
    · rename_i avg havg
      have htracks := h.toTracks.sampled hsensor time havg
      -- the average the code has is that of the samples
      have hjudges : (γ.sampled reading time).Judges F profile group
          (γ.sampled reading time).samples.length idx ((group.sensor idx).outOfBounds avg) := by
        refine ⟨avg, ?_, rfl⟩
        rw [upTo_length, htracks.averages idx]
        simp only [get_setAverage]
      have hlast : (γ.sampled reading time).samples.getLast? = some (γ.sample reading time) :=
        List.getLast?_concat
      refine recorded_bind (recorded_checkRange _ avg fun hout => ?_) ?_
      · exact ⟨_, idx, hlast, hsensor, hout ▸ hjudges⟩
      rintro _ _ rfl
      exact htracks.stopped h.reading hsensor hlast hsensor h.checked.symm
        (by simp [Record.sampled, h.checked]) hjudges (hfits.record hidx _ _ _ _)

/-- Between two sensors: so many are done in this round, and these are to come. -/
structure Between (config : Configuration) (profile : Profile) (group : SensorGroup)
    (logFiles : List LogFile) (done : Nat) (rest : List (Fin group.size))
    (locals : Locals F group.size) (γ : Record) : Prop where
  rests : Rests config profile group logFiles locals γ
  sensor : γ.sensor = done
  fits : locals.Fits config (· ∈ rest)

/-- The guard of the ADC is dropped. -/
theorem InHand.between {locals : Locals F group.size} {idx : Fin group.size}
    {rest : List (Fin group.size)} (h : InHand config profile group logFiles idx rest locals γ) :
    Between config profile group logFiles (idx + 1) rest locals
      { γ with sensor := γ.sensor + 1, checked := γ.samples.length } where
  rests := { h.tracks with reading := h.reading, checked := rfl }
  sensor := congrArg (· + 1) h.sensor
  fits := h.fits

/-- **One turn of the loop over the sensors.** -/
theorem recorded_sample {locals : Locals F group.size} {idx : Fin group.size}
    {rest : List (Fin group.size)}
    (h : Between config profile group logFiles idx (idx :: rest) locals γ) (hidx : idx ∉ rest) :
    Recorded F profile group groupId period γ (sample profile group locals idx).run
      (ComesTo False (Between config profile group logFiles (idx + 1) rest)) := by
  have hvisit : Recorded F profile group groupId period γ (Fallible.guarded
      (Act.acquire (.adc (group.sensor idx).adc) .exclusive) (fun poisoned =>
        if poisoned then (pure none : Routine RunError (Option (Locals F group.size)))
        else do
          let locals ← sampleLocked profile group idx locals
          pure (some locals)) (Act.release (.adc (group.sensor idx).adc))).run
      (ComesTo False fun sampled γ' =>
        Between config profile group logFiles (idx + 1) rest (sampled.getD locals) γ') := by
    refine recorded_silent (a := .acquire (.adc (group.sensor idx).adc) .exclusive) trivial
      fun poisoned => Prog.Follows.bind ?_
    have hinHand : Recorded F profile group groupId period γ
        (if poisoned then (pure none : Routine RunError (Option (Locals F group.size)))
          else do
            let locals ← sampleLocked profile group idx locals
            pure (some locals)).run
        (ComesTo False fun sampled γ' =>
          InHand config profile group logFiles idx rest (sampled.getD locals) γ') := by
      cases poisoned with
      | true => exact h.rests.inHand h.sensor h.fits
      | false =>
        refine recorded_bind (recorded_sampleLocked h.rests h.sensor h.fits hidx) ?_
        exact fun locals' γ' h' => h'
    refine hinHand.mono ?_
    rintro (e | sampled) γ' h'
    · exact h'.elim
    · exact ⟨h'.checked, fun _ _ => h'.between⟩
  refine recorded_bind hvisit ?_
  rintro (none | locals') γ' h'
  · refine recorded_bind (recorded_note _ _ _ fun _ => rfl) ?_
    rintro _ _ rfl
    exact h'
  · exact h'

/-- The sensors from the `k`-th on, as far as they go. -/
theorem cons_prefix_drop_finRange {n k : Nat} {idx : Fin n} {rest : List (Fin n)}
    (h : idx :: rest <+: (List.finRange n).drop k) :
    idx.val = k ∧ idx ∉ rest ∧ rest <+: (List.finRange n).drop (k + 1) := by
  have hnodup : (idx :: rest).Nodup :=
    (List.nodup_finRange n).sublist (h.sublist.trans (List.drop_sublist _ _))
  have hlt : k < (List.finRange n).length := by
    by_contra hge
    rw [List.drop_eq_nil_of_le (Nat.not_lt.mp hge)] at h
    cases List.prefix_nil.mp h
  rw [List.drop_eq_getElem_cons hlt, List.cons_prefix_cons] at h
  refine ⟨?_, (List.nodup_cons.mp hnodup).1, h.2⟩
  rw [h.1, List.getElem_finRange]
  rfl

/-- **A part of a round**, by induction on the sensors in it. -/
theorem recorded_sweep : ∀ (rest : List (Fin group.size)) {done : Nat}
    {locals : Locals F group.size} {γ : Record},
    Between config profile group logFiles done rest locals γ →
      rest <+: (List.finRange group.size).drop done →
      Recorded F profile group groupId period γ (rest.foldlM (sample profile group) locals).run
        (ComesTo False (Between config profile group logFiles (done + rest.length) []))
  | [], _, _, _, h, _ => h
  | idx :: rest, done, locals, γ, h, hinitial => by
    obtain ⟨rfl, hidx, hrest⟩ := cons_prefix_drop_finRange hinitial
    rw [List.foldlM_cons, List.length_cons, Nat.add_comm rest.length, ← Nat.add_assoc]
    refine recorded_bind (recorded_sample h hidx) fun locals' γ' h' => ?_
    exact recorded_sweep rest h' hrest

/-! ## 6. The transmission -/

/-- The check is passed. -/
def Record.passed (γ : Record) : Record :=
  { γ with passes := γ.passes ++ γ.times.getLast?.toList, due := γ.fresh, fresh := [] }

/-- A message is handed to `send`. -/
def Record.sent (size : Nat) (γ : Record) : Record :=
  { γ with handed := γ.handed ++ Record.latest size γ.due, due := [] }

theorem recorded_hasTarget (hdue : γ.Due period) :
    Recorded F profile group groupId period γ Routine.hasTarget.run
      (ComesTo True fun _ γ' => γ' = γ.passed) := by
  refine ⟨hdue, fun _ _ => ⟨trivial, fun r _ => ?_⟩⟩
  cases r with
  | ok target => exact ⟨trivial, fun _ _ => rfl⟩
  | error e => exact ⟨trivial, fun _ _ => trivial⟩

theorem recorded_send {message : Message}
    (hmessage : message =
      .sensorValue groupId ((Record.latest group.size γ.due).map Sample.toReading)) :
    Recorded F profile group groupId period γ (Routine.send message).run
      (ComesTo True fun _ γ' => γ' = γ.sent group.size) := by
  have hsend : Recorded F profile group groupId period γ (critical (.send message)) fun r γ' =>
      ComesTo True (fun _ γ' => γ' = γ.sent group.size) (r.mapError RunError.outgoing) γ' := by
    refine recorded_guarded trivial trivial fun poisoned => ?_
    cases poisoned with
    | true => exact trivial
    | false =>
      refine recorded_guarded trivial trivial fun _ => ⟨hmessage, fun r _ => ?_⟩
      cases r with
      | ok _ => rfl
      | error e => trivial
  exact Prog.Follows.bind (hsend.mono fun _ _ h => h)

/-- The readings of the message are the latest samples. -/
theorem Tracks.readings {locals : Locals F group.size}
    (h : Tracks config profile group logFiles locals γ) :
    locals.readings = (Record.latest group.size γ.fresh).map Sample.toReading := by
  rw [Record.latest, ← List.map_coe_finRange_eq_range, List.filterMap_map, List.map_filterMap]
  refine List.filterMap_congr fun idx _ => ?_
  rw [h.fresh idx, Option.map_map]
  refine Option.map_congr fun s hs => ?_
  have hmem := List.mem_of_getLast? hs
  simp only [List.mem_filter, decide_eq_true_eq] at hmem
  rw [Function.comp_apply, Sample.toReading, hmem.2]

/-- The variables after a check that was passed. -/
theorem Rests.transmitted {locals : Locals F group.size} {time time' : Nat}
    (h : Rests config profile group logFiles locals γ) (hlast : locals.lastTransmissionTime ≤ time)
    (due handed : List Sample) :
    Rests config profile group logFiles
      { locals with
        lastTransmissionTime := time', transmissionReadings := Vector.replicate _ none }
      { γ with
        times := γ.times ++ [time] ++ [time'], passes := γ.passes ++ [time], fresh := [],
        due := due, handed := handed } :=
  { h with
    fresh := fun idx => Vector.getElem_replicate idx.isLt
    sent := by
      intro hsorted
      obtain ⟨hbefore, -, hle⟩ := List.pairwise_append.mp hsorted
      have htime : time ≤ time' := hle time (by simp) time' (List.mem_singleton_self _)
      intro t ht
      rcases List.mem_append.mp ht with ht | ht
      · exact (h.sent (List.pairwise_append.mp hbefore).1 t ht).trans (hlast.trans htime)
      · rwa [List.mem_singleton.mp ht] }

theorem timed_of_none (hreading : γ.reading = none) (time : Nat) :
    γ.timed time = { γ with times := γ.times ++ [time] } := by
  rw [Record.timed, hreading]

/-- **The transmission**, whether it is due or not. -/
theorem recorded_transmit {locals : Locals F group.size} {room : Fin group.size → Prop}
    (h : Rests config profile group logFiles locals γ) (hfits : locals.Fits config room) :
    Recorded F profile group groupId period γ (transmit group groupId period locals).run
      (ComesTo True fun locals' γ' =>
        Rests config profile group logFiles locals' γ' ∧ locals'.Fits config room) := by
  refine recorded_bind recorded_now ?_
  rintro time _ rfl
  rw [timed_of_none h.reading]
  dsimp only
  split
  · rename_i hdue
    -- what is left to do, once the message is sent or need not be
    have hdone : ∀ due handed, Recorded F profile group groupId period
        { γ with
          times := γ.times ++ [time], passes := γ.passes ++ [time], fresh := [], due := due,
          handed := handed }
        (do
          let time ← Routine.now
          pure { locals with
            lastTransmissionTime := time, transmissionReadings := Vector.replicate _ none } :
          Routine RunError (Locals F group.size)).run
        (ComesTo True fun locals' γ' =>
          Rests config profile group logFiles locals' γ' ∧ locals'.Fits config room) := by
      intro due handed
      refine recorded_bind recorded_now ?_
      rintro time' _ rfl
      rw [timed_of_none]
      · exact ⟨h.transmitted (by omega) due handed, hfits⟩
      · exact h.reading
    have hpassed : Record.passed { γ with times := γ.times ++ [time] } = { γ with
        times := γ.times ++ [time], passes := γ.passes ++ [time], fresh := [], due := γ.fresh } := by
      simp [Record.passed]
    refine recorded_bind (recorded_hasTarget ?_) ?_
    · intro hsorted t ht time' htime'
      have hle := h.sent (List.pairwise_append.mp hsorted).1 t ht
      obtain rfl : time = time' := by simpa using htime'
      omega
    rw [hpassed]
    rintro target _ rfl
    cases target with
    | false => exact hdone γ.fresh γ.handed
    | true =>
      refine recorded_bind (recorded_send ?_) ?_
      · rw [h.readings]
      rintro _ _ rfl
      exact hdone [] _
  · exact ⟨{ h with sent := fun hsorted => h.sent (List.pairwise_append.mp hsorted).1 }, hfits⟩

/-! ## 7. The logs -/

omit [F64 F] in
/-- A queue without its contents. -/
theorem get_clear {n : Nat} (locals : Locals F n) (i j : Fin n) :
    (locals.clear i).mostRecentReadings.get j
      = if i = j then [] else locals.mostRecentReadings.get j :=
  get_set _ i j []

omit [F64 F] in
theorem Locals.Fits.clear {n : Nat} {locals : Locals F n} {idx : Fin n} {rest : List (Fin n)}
    (hfits : locals.Fits config (· ∉ idx :: rest)) : (locals.clear idx).Fits config (· ∉ rest) := by
  intro j
  rw [get_clear]
  split
  · simp
  · rename_i hne
    refine ⟨(hfits j).1, fun hj => (hfits j).2 ?_⟩
    simp [hj, Ne.symm hne]

omit [F64 F] in
/-- A queue that is not full need not be cleared. -/
theorem Locals.Fits.skip {n : Nat} {locals : Locals F n} {idx : Fin n} {rest : List (Fin n)}
    (hfits : locals.Fits config (· ∉ idx :: rest))
    (hlt : (locals.mostRecentReadings.get idx).length < config.logBufferSize) :
    locals.Fits config (· ∉ rest) := by
  intro j
  refine ⟨(hfits j).1, fun hj => ?_⟩
  by_cases heq : j = idx
  · subst heq
    omega
  · exact (hfits j).2 (by simp [hj, heq])

/-- A full queue is handed over as one batch, and is empty then. -/
theorem Record.Queued.flushed {sensor : Sensor} {idx : Nat} {file : LogFile}
    {queue : List (Nat × UInt16 × F)} (h : γ.Queued config sensor idx file queue)
    (hfull : config.logBufferSize ≠ 0 → queue.length = config.logBufferSize) (written : Bool)
    (warned : List String) :
    Record.Queued config
      { γ with batches := γ.batches ++ [⟨file, queue.map sensorRow, written⟩], warned := warned }
      sensor idx file ([] : List (Nat × UInt16 × F)) := by
  obtain ⟨parts, rest, hof, hrows, hqueue, hlength⟩ := h
  refine ⟨parts ++ [rest], [], ?_, ?_, by simp, ?_⟩
  · rw [List.flatten_concat, List.append_nil]
    exact hof
  · rw [Record.batchesOf, List.filter_append, List.map_append, List.map_append]
    rw [Record.batchesOf] at hrows
    rw [hrows, hqueue]
    simp [Function.comp_def]
  · intro part hpart hsize
    rcases List.mem_append.mp hpart with hpart | hpart
    · exact hlength part hpart hsize
    · rw [List.mem_singleton.mp hpart, ← hfull hsize, hqueue, List.length_map]

/-- **A batch keeps the variables with the record**, whether it is written or not. -/
theorem Rests.flushed {locals : Locals F group.size} {idx : Fin group.size} {file : LogFile}
    (h : Rests config profile group logFiles locals γ)
    (hfile : logFiles[idx.val]? = some file)
    (hge : config.logBufferSize ≤ (locals.mostRecentReadings.get idx).length)
    (hle : (locals.mostRecentReadings.get idx).length ≤ max 1 config.logBufferSize)
    (written : Bool) :
    Rests config profile group logFiles (locals.clear idx)
      { γ with
        batches := γ.batches ++
          [⟨file, (locals.mostRecentReadings.get idx).map sensorRow, written⟩]
        warned := γ.warned ++ if written then [] else [(group.sensor idx).label] } :=
  { h with
    queues := by
      intro hnodup j file' hfile'
      rw [get_clear]
      by_cases heq : idx = j
      · subst heq
        obtain rfl := Option.some.inj (hfile.symm.trans hfile')
        rw [if_pos rfl]
        exact (h.queues hnodup idx file hfile).flushed (fun _ => by omega) written _
      · -- the file of another sensor is another file
        have hne : file ≠ file' := by
          rintro rfl
          obtain ⟨hlt, hget⟩ := List.getElem?_eq_some_iff.mp hfile
          obtain ⟨hlt', hget'⟩ := List.getElem?_eq_some_iff.mp hfile'
          exact heq (Fin.ext ((List.Nodup.getElem_inj_iff hnodup).mp (hget.trans hget'.symm)))
        rw [if_neg heq]
        obtain ⟨parts, rest, hof, hrows, hqueue, hlength⟩ := h.queues hnodup j file' hfile'
        refine ⟨parts, rest, hof, ?_, hqueue, hlength⟩
        rw [← hrows, Record.batchesOf, Record.batchesOf, List.filter_append]
        simp [hne]
    warned := by
      rw [List.filter_append]
      cases written with
      | true => simpa using h.warned
      | false => exact List.rel_append h.warned (List.Forall₂.cons ⟨idx, hfile, rfl⟩ .nil) }

/-- **One turn of the loop over the queues.** -/
theorem recorded_flush {locals : Locals F group.size} {idx : Fin group.size}
    {rest : List (Fin group.size)}
    (h : Rests config profile group logFiles locals γ)
    (hfits : locals.Fits config (· ∉ idx :: rest)) :
    Recorded F profile group groupId period γ (flush config group logFiles locals idx).run
      (ComesTo False fun locals' γ' => Rests config profile group logFiles locals' γ' ∧
        locals'.Fits config (· ∉ rest)) := by
  unfold flush
  dsimp only
  split
  · rename_i hge
    split
    · exact trivial
    · rename_i file hfile
      refine ⟨trivial, fun result _ => ?_⟩
      have hflushed := h.flushed hfile hge (hfits idx).1
      cases result with
      | ok u =>
        have := hflushed true
        rw [if_pos rfl, List.append_nil] at this
        exact ⟨this, hfits.clear⟩
      | error u =>
        refine recorded_bind (recorded_note _ _ _ fun _ => rfl) ?_
        rintro _ _ rfl
        exact ⟨hflushed false, hfits.clear⟩
  · rename_i hlt
    exact ⟨h, hfits.skip (Nat.not_le.mp hlt)⟩

/-- **The queues are flushed**, by induction on them. -/
theorem recorded_flushes : ∀ (rest : List (Fin group.size))
    {locals : Locals F group.size} {γ : Record}, Rests config profile group logFiles locals γ →
      locals.Fits config (· ∉ rest) →
      Recorded F profile group groupId period γ (rest.foldlM (flush config group logFiles) locals).run
        (ComesTo False fun locals' γ' => Rests config profile group logFiles locals' γ' ∧
          locals'.Fits config fun _ => True)
  | [], _, _, h, hfits => ⟨h, fun j => ⟨(hfits j).1, fun _ => (hfits j).2 (by simp)⟩⟩
  | idx :: rest, locals, γ, h, hfits => by
    rw [List.foldlM_cons]
    refine recorded_bind (recorded_flush h hfits) ?_
    rintro locals' γ' ⟨h', hfits'⟩
    exact recorded_flushes rest h' hfits'

/-! ## 8. The loop -/

/-- **The head of the loop**: nothing is in hand, and each queue has room. -/
structure AtHead (config : Configuration) (profile : Profile) (group : SensorGroup)
    (logFiles : List LogFile) (locals : Locals F group.size) (γ : Record) : Prop where
  rests : Rests config profile group logFiles locals γ
  fits : locals.Fits config fun _ => True

/-- Looking at the state begins a round. -/
theorem AtHead.begins {locals : Locals F group.size}
    (h : AtHead config profile group logFiles locals γ) (rest : List (Fin group.size)) :
    Between config profile group logFiles 0 rest locals { γ with sensor := 0 } where
  rests := { h.rests with }
  sensor := rfl
  fits j := ⟨(h.fits j).1, fun _ => (h.fits j).2 trivial⟩

/-- How a turn of the loop ends, or the loop. -/
def Turned (config : Configuration) (profile : Profile) (group : SensorGroup)
    (logFiles : List LogFile) (r : Locals F group.size ⊕ Unit) (γ : Record) : Prop :=
  match r with
  | .inl locals => AtHead config profile group logFiles locals γ
  | .inr () => ∃ locals : Locals F group.size, AtHead config profile group logFiles locals γ

/-- **One turn of the loop.** -/
theorem recorded_sensorTurn {locals : Locals F group.size} {periods : Periods}
    (h : AtHead config profile group logFiles locals γ) :
    Recorded F profile group groupId periods.transmission γ
      (sensorTurn config profile group groupId logFiles periods locals).run
      (ComesTo True (Turned config profile group logFiles)) := by
  refine recorded_bind recorded_status ?_
  rintro state _ rfl
  dsimp only
  split
  · exact ⟨locals, { h.rests with }, h.fits⟩
  refine recorded_bind (recorded_sweep _ (h.begins _) (List.prefix_refl _)) ?_
  rintro locals₁ γ₁ ⟨hrests₁, -, hfits₁⟩
  refine recorded_bind (recorded_transmit hrests₁ hfits₁) ?_
  rintro locals₂ γ₂ ⟨hrests₂, hfits₂⟩
  refine recorded_bind (recorded_flushes _ hrests₂ ?_) ?_
  · exact fun j => ⟨(hfits₂ j).1, fun hj => absurd (List.mem_finRange j) hj⟩
  rintro locals₃ γ₃ ⟨hrests₃, hfits₃⟩
  refine recorded_bind recorded_status ?_
  rintro state _ rfl
  exact ⟨trivial, fun _ _ => ⟨{ hrests₃ with }, hfits₃⟩⟩

/-- **The loop**, by induction on its turns. -/
theorem recorded_loop {periods : Periods} (turns : Nat)
    {locals : Locals F group.size} (h : AtHead config profile group logFiles locals γ) :
    Recorded F profile group groupId periods.transmission γ
      (Fallible.loop (sensorTurn config profile group groupId logFiles periods) turns locals).run
      (ComesTo True (Turned config profile group logFiles)) := by
  refine Fallible.follows_loop (I := AtHead config profile group logFiles)
    (fun locals γ h => (recorded_sensorTurn h).mono ?_) (fun _ _ h => h) turns h
  rintro (e | locals' | u) γ' h'
  · exact h'
  · exact h'
  · exact h'

/-- The variables before the loop. -/
theorem atHead_start (time : Nat) {γ : Record} (hγ : γ = Record.start.timed time) :
    AtHead config profile group logFiles (Locals.start group time : Locals F group.size) γ := by
  subst hγ
  have hget : ∀ {α : Type} (a : α) (idx : Fin group.size),
      (Vector.replicate group.size a).get idx = a := fun a idx => Vector.getElem_replicate idx.isLt
  constructor
  · constructor
    · constructor
      · intro idx
        have hseed : (group.seeds : Vector F group.size).get idx = (group.sensor idx).seed :=
          Vector.getElem_ofFn (f := fun idx => (group.sensor idx).seed) idx.isLt
        exact congrArg some hseed.symm
      · exact fun idx => hget none idx
      · intro _ idx file _
        refine ⟨[], [], rfl, rfl, hget [] idx, ?_⟩
        simp
      · intro _ t ht
        cases ht
      · exact List.Forall₂.nil
    · rfl
    · rfl
  · intro idx
    have hnil : ((Locals.start group time : Locals F group.size).mostRecentReadings.get idx) = [] :=
      hget [] idx
    rw [hnil]
    simp

section Beginnings

variable (F) (config profile group groupId logFiles)

/-- `sensor_listen` for its group, up to this many turns of the loop: the variables it goes on with,
unless it has left the loop. -/
def listenFor (turns : Nat) : Routine RunError (Locals F group.size ⊕ Unit) := do
  let time ← Routine.now
  match group.periods.value with
  | none => .abort
  | some periods =>
    Fallible.loop (sensorTurn config profile group groupId logFiles periods) turns
      (Locals.start group time : Locals F group.size)

/-- `sensor_listen` up to the first `sensors` sensors of the turn after that. -/
def sampledFor (turns sensors : Nat) : Routine RunError (Locals F group.size ⊕ Unit) := do
  match ← listenFor F config profile group groupId logFiles turns with
  | .inr () => pure (.inr ())
  | .inl locals =>
    if (← Routine.status) = .quit then pure (.inr ())
    else
      let locals ← ((List.finRange group.size).take sensors).foldlM (sample profile group) locals
      pure (.inl locals)

end Beginnings

variable {turns : Nat}

theorem sensorListen_eq (hgroup : config.sensorGroups[groupId.toNat]? = some group) :
    sensorListen F config profile groupId logFiles turns
      = listenFor F config profile group groupId logFiles turns >>= fun r => pure (.ofTurns r) := by
  unfold sensorListen listenFor
  rw [hgroup, bind_assoc]
  refine bind_congr fun time => ?_
  cases group.periods.value with
  | none => rfl
  | some periods => rfl

section Rest

variable (F) (config profile group groupId logFiles)

/-- The rest of `sensor_listen` from between two turns, when it is to have so many more. -/
def listenOn (more : Nat) : Locals F group.size ⊕ Unit → Routine RunError Exit
  | .inl locals =>
    match group.periods.value with
    | none => .abort
    | some periods => do
      let r ← Fallible.loop (sensorTurn config profile group groupId logFiles periods) more locals
      pure (.ofTurns r)
  | .inr () => pure .quit

/-- The rest of `sensor_listen` from between two sensors. -/
def sampleOn (sensors more : Nat) : Locals F group.size ⊕ Unit → Routine RunError Exit
  | .inl locals =>
    match group.periods.value with
    | none => .abort
    | some periods => do
      let locals ← ((List.finRange group.size).drop sensors).foldlM (sample profile group) locals
      let locals ← transmit group groupId periods.transmission locals
      let locals ← (List.finRange group.size).foldlM (flush config group logFiles) locals
      let sleepTime := match ← Routine.status with
        | .standby => periods.standby
        | _ => periods.ignition
      Routine.sleep sleepTime
      listenOn F config profile group groupId logFiles more (.inl locals)
  | .inr () => pure .quit

end Rest

/-- **`listenFor` is a beginning of `sensor_listen`.** -/
theorem sensorListen_add (hgroup : config.sensorGroups[groupId.toNat]? = some group)
    (turns more : Nat) :
    sensorListen F config profile groupId logFiles (turns + more)
      = listenFor F config profile group groupId logFiles turns >>=
        listenOn F config profile group groupId logFiles more := by
  rw [sensorListen_eq hgroup]
  unfold listenFor listenOn
  rw [bind_assoc, bind_assoc]
  refine bind_congr fun time => ?_
  cases group.periods.value with
  | none => rfl
  | some periods =>
    dsimp only
    rw [Fallible.loop_add, bind_assoc]
    refine bind_congr fun r => ?_
    cases r with
    | inl locals => rfl
    | inr u => exact pure_bind _ _

/-- **`sampledFor` is a beginning of `sensor_listen`.** -/
theorem sensorListen_sampled (hgroup : config.sensorGroups[groupId.toNat]? = some group)
    (turns sensors more : Nat) :
    sensorListen F config profile groupId logFiles (turns + (more + 1))
      = sampledFor F config profile group groupId logFiles turns sensors >>=
        sampleOn F config profile group groupId logFiles sensors more := by
  rw [sensorListen_add hgroup, sampledFor, bind_assoc]
  cases hperiods : group.periods.value with
  | none =>
    rw [listenFor, hperiods, bind_assoc, bind_assoc]
    rfl
  | some periods =>
    refine bind_congr fun r => ?_
    cases r with
    | inr u => exact (pure_bind _ _).symm
    | inl locals =>
      simp only [listenOn, hperiods, Fallible.loop, sensorTurn, bind_assoc]
      refine bind_congr fun state => ?_
      split
      · rfl
      · -- the sensors of the turn are the first of them and the others
        have hsweep : (List.finRange group.size).foldlM (sample profile group) locals
            = ((List.finRange group.size).take sensors).foldlM (sample profile group) locals >>=
              ((List.finRange group.size).drop sensors).foldlM (sample profile group) := by
          rw [← List.foldlM_append, List.take_append_drop]
        rw [hsweep]
        simp only [bind_assoc, pure_bind]
        refine bind_congr fun locals => ?_
        unfold sampleOn listenOn
        generalize group.periods.value = value at hperiods ⊢
        subst hperiods
        exact bind_congr fun locals => rfl

/-- The period of the transmission, or anything where there is none. -/
def SensorGroup.transmissionPeriod (group : SensorGroup) : Duration :=
  match group.periods.value with
  | some periods => periods.transmission
  | none => 0

/-- **`sensor_listen` does what its record allows**, and its variables are those of the record. -/
theorem recorded_listenFor (turns : Nat) :
    Recorded F profile group groupId group.transmissionPeriod .start
      (listenFor F config profile group groupId logFiles turns).run
      (ComesTo True (Turned config profile group logFiles)) := by
  refine recorded_bind recorded_now ?_
  rintro time γ hγ
  unfold SensorGroup.transmissionPeriod
  cases group.periods.value with
  | none => exact trivial
  | some periods => exact recorded_loop turns (atHead_start time hγ)

theorem recorded_sampledFor (turns sensors : Nat) :
    Recorded F profile group groupId group.transmissionPeriod .start
      (sampledFor F config profile group groupId logFiles turns sensors).run
      (ComesTo True fun r γ => match r with
        | .inl locals => Rests config profile group logFiles locals γ
        | .inr () => True) := by
  refine recorded_bind (recorded_listenFor turns) ?_
  rintro (locals | u) γ h
  · refine recorded_bind recorded_status ?_
    rintro state _ rfl
    split
    · exact trivial
    · refine recorded_bind
        (recorded_sweep _ (h.begins _) (List.take_prefix _ _)) ?_
      exact fun locals' γ' h' => h'.rests
  · exact trivial

theorem recorded_sensorListen (hgroup : config.sensorGroups[groupId.toNat]? = some group)
    (turns : Nat) :
    Recorded F profile group groupId group.transmissionPeriod .start
      (sensorListen F config profile groupId logFiles turns).run
      (ComesTo True fun _ γ =>
        ∃ locals : Locals F group.size, AtHead config profile group logFiles locals γ) := by
  rw [sensorListen_eq hgroup]
  refine recorded_bind (recorded_listenFor turns) ?_
  rintro (locals | u) γ h
  · exact ⟨locals, h⟩
  · exact h

/-! ## 9. Histories -/

@[simp] theorem record_concat (size : Nat) (h : List (Call Act.Ans)) (c : Call Act.Ans) :
    record size (h ++ [c]) = (record size h).next size c := by
  simp [record]

/-- The thread goes on. -/
def goesOn {α β : Type} : Except RunError (α ⊕ β) → Bool
  | .ok (.inl _) => true
  | _ => false

theorem exists_of_goesOn {α β : Type} {r : Except RunError (α ⊕ β)} (h : goesOn r = true) :
    ∃ a, r = .ok (.inl a) := by
  unfold goesOn at h
  split at h
  · exact ⟨_, rfl⟩
  · cases h

section Histories

variable {p q : Prog Act Act.Ans α} {h : List (Call Act.Ans)} {Q : α → Record → Prop}

/-- Where it has returned. -/
theorem returned_of_recorded (hp : Recorded F profile group groupId period .start p Q) {a : α}
    (hs : Prog.Steps p h (.ret a)) : Q a (record group.size h) := by
  rcases hp.steps hs fun _ _ _ _ => trivial with ⟨hpanic, -⟩ | hq
  · cases hpanic
  · exact hq

/-- What it did was allowed when it was done. -/
theorem permits_of_recorded (hp : Recorded F profile group groupId period .start p Q)
    {h₁ h₂ : List (Call Act.Ans)} {c : Call Act.Ans} (hs : Prog.Steps p (h₁ ++ c :: h₂) q) :
    (record group.size h₁).Permits F profile group groupId period c.op :=
  hp.permits_of_split hs fun _ _ _ _ => trivial

/-- What holds at the start, and is kept by what the record allows, holds. -/
theorem invariant_of_recorded {I : Record → Prop}
    (hp : Recorded F profile group groupId period .start p Q) (hs : Prog.Steps p h q)
    (hstart : I .start)
    (hnext : ∀ γ c, γ.Permits F profile group groupId period c.op → I γ → I (γ.next group.size c)) :
    I (record group.size h) :=
  hp.invariant hs (fun _ _ _ _ => trivial) hstart hnext

end Histories

/-- Samples are only added. -/
theorem samples_next (size : Nat) (γ : Record) (c : Call Act.Ans) :
    γ.samples <+: (γ.next size c).samples := by
  unfold Record.next
  split
  · exact List.prefix_refl _
  · exact List.prefix_refl _
  · unfold Record.timed
    split
    · exact List.prefix_refl _
    · exact List.prefix_append _ _
  all_goals exact List.prefix_refl _

theorem samples_grow (size : Nat) (h h' : List (Call Act.Ans)) :
    (record size h).samples <+: (record size (h ++ h')).samples := by
  induction h' using List.reverseRecOn with
  | nil => rw [List.append_nil]
  | append_singleton h' c ih =>
    rw [← List.append_assoc, record_concat]
    exact ih.trans (samples_next size _ c)

/-- The group of the stand with one sensor. -/
def SensorGroup.oneSensor (frequency : UInt32) (rollingAverageWidth : Option UInt32) : SensorGroup :=
  ⟨"FAST", frequency, frequency, frequency,
    [⟨"LC_MAIN", "#FF0000", "lb", some (0, 100), 0, 1, rollingAverageWidth, 0, 0⟩]⟩

/-- Its sensor. -/
def SensorGroup.theSensor {frequency : UInt32} {rollingAverageWidth : Option UInt32} :
    Fin (SensorGroup.oneSensor frequency rollingAverageWidth).size := ⟨0, Nat.one_pos⟩

end Slonk
