/-
# False alarms, and alarms that come late

`sensor_listen` starts an emergency stop when the rolling average of a sensor leaves the sensor's
range.  With exact arithmetic in place of `f64`:

* there is no false alarm: as long as every reading of a sensor is in its range, so is the average,
  which starts in the middle, and the sensor starts no stop (`no_false_alarm`);
* an alarm comes within a number of samples that can be computed from the width of the average: each
  sample out of range leaves at most the part `(w - 1) / w` of the distance to it
  (`violation_detected`).

A run of `sensor_listen` stops anywhere, and a sensor's sample is over when its ADC has been given
back.
-/
import Slonk.Sampling
import Slonk.Numeric.RollingAverage

namespace Slonk

open Concurrency

variable {F : Type} [F64 F] {config : Configuration} {profile : Profile} {group : SensorGroup}
  {groupId : UInt8} {logFiles : List LogFile} {period : Duration} {γ : Record}

/-! ## 1. Stops and averages -/

/-- **A stop is started exactly at the samples that move an average out of its range**, as far as they
are over. -/
structure Judged (F : Type) [F64 F] (profile : Profile) (group : SensorGroup) (γ : Record) : Prop where
  numbered : γ.samples.map Sample.number = List.range γ.samples.length
  checked : γ.checked ≤ γ.samples.length
  stopped : ∀ m ∈ γ.stops, ∃ s idx, γ.samples[m]? = some s ∧ s.sensor = Fin.val idx ∧
    γ.Judges F profile group (m + 1) idx true
  judged : ∀ m < γ.checked, ∃ s idx out, γ.samples[m]? = some s ∧ s.sensor = Fin.val idx ∧
    γ.Judges F profile group (m + 1) idx out ∧ (out = true → m ∈ γ.stops)

theorem Judged.start : Judged F profile group .start :=
  ⟨rfl, le_rfl, by simp [Record.start], by simp [Record.start]⟩

/-- A sample more leaves the samples before it as they were. -/
theorem upTo_concat {m : Nat} (hm : m ≤ γ.samples.length) (s : Sample) {γ' : Record}
    (hγ : γ'.samples = γ.samples ++ [s]) (idx : Nat) : γ'.upTo m idx = γ.upTo m idx := by
  rw [Record.upTo, Record.upTo, hγ, List.take_append_of_le_length hm]

/-- The clock is read, and there may be a sample more. -/
theorem Judged.timed (h : Judged F profile group γ) (time : Nat) :
    Judged F profile group (γ.timed time) := by
  unfold Record.timed
  split
  · exact { h with }
  · rename_i reading _
    have hget : ∀ {m : Nat} {s s' : Sample}, γ.samples[m]? = some s →
        (γ.samples ++ [s'])[m]? = some s ∧ m + 1 ≤ γ.samples.length := by
      intro m s s' hs
      have hlt := (List.getElem?_eq_some_iff.mp hs).1
      exact ⟨by rw [List.getElem?_append_left hlt, hs], hlt⟩
    constructor
    · simp [h.numbered, List.range_succ]
    · exact h.checked.trans (by simp)
    · intro m hm
      obtain ⟨s, idx, hs, hidx, avg, havg, hout⟩ := h.stopped m hm
      obtain ⟨hs', hlt⟩ := hget hs
      exact ⟨s, idx, hs', hidx, avg, by rwa [upTo_concat hlt _ rfl], hout⟩
    · intro m hm
      obtain ⟨s, idx, out, hs, hidx, ⟨avg, havg, hout⟩, hstop⟩ := h.judged m hm
      obtain ⟨hs', hlt⟩ := hget hs
      exact ⟨s, idx, out, hs', hidx, ⟨avg, by rwa [upTo_concat hlt _ rfl], hout⟩, hstop⟩

/-- A sample is at its number. -/
theorem Judged.number (h : Judged F profile group γ) {m : Nat} {s : Sample}
    (hs : γ.samples[m]? = some s) : s.number = m := by
  have hnumber : (γ.samples.map Sample.number)[m]? = some s.number := by
    rw [List.getElem?_map, hs, Option.map_some]
  rw [h.numbered, List.getElem?_range (List.getElem?_eq_some_iff.mp hs).1] at hnumber
  exact (Option.some.inj hnumber).symm

theorem Judged.get (h : Judged F profile group γ) {s : Sample} (hs : s ∈ γ.samples) :
    γ.samples[s.number]? = some s := by
  obtain ⟨m, hm⟩ := List.getElem?_of_mem hs
  rw [h.number hm, hm]

/-- The number of the last sample. -/
theorem Judged.last (h : Judged F profile group γ) {s : Sample} (hs : γ.samples.getLast? = some s) :
    γ.samples[s.number]? = some s ∧ s.number + 1 = γ.samples.length := by
  refine ⟨h.get (List.mem_of_getLast? hs), ?_⟩
  rw [List.getLast?_eq_getElem?] at hs
  have hlt := (List.getElem?_eq_some_iff.mp hs).1
  have := h.number hs
  omega

/-- **One call.** -/
theorem Judged.next (h : Judged F profile group γ) {c : Call Act.Ans}
    (hpermits : γ.Permits F profile group groupId period c.op) :
    Judged F profile group (γ.next group.size c) := by
  unfold Record.next
  split
  · exact { h with }
  · exact { h with }
  · exact h.timed _
  · -- a stop
    obtain ⟨s, idx, hlast, hidx, hjudges⟩ := hpermits
    obtain ⟨hget, hnumber⟩ := h.last hlast
    refine { h with stopped := ?_, judged := ?_ }
    · intro m hm
      rcases List.mem_append.mp hm with hm | hm
      · exact h.stopped m hm
      · obtain rfl : m = s.number := by simpa [hlast] using hm
        exact ⟨s, idx, hget, hidx, hnumber ▸ hjudges⟩
    · intro m hm
      obtain ⟨s, idx, out, hs, hidx, hjudges, hstop⟩ := h.judged m hm
      exact ⟨s, idx, out, hs, hidx, hjudges, fun hout => List.mem_append_left _ (hstop hout)⟩
  · -- an ADC is given back
    refine { h with checked := le_rfl, judged := ?_ }
    rcases hpermits with heq | ⟨heq, s, idx, out, hlast, hidx, hjudges, hstop⟩
    · rw [heq]
      exact h.judged
    · intro m (hm : m < γ.samples.length)
      rcases Nat.lt_or_ge m γ.checked with hlt | hge
      · exact h.judged m hlt
      · obtain ⟨hget, hnumber⟩ := h.last hlast
        obtain rfl : m = s.number := by omega
        have hchecked : s.number = γ.checked := by omega
        exact ⟨s, idx, out, hget, hidx, hnumber ▸ hjudges, hchecked ▸ hstop⟩
  all_goals exact { h with }

/-- **Every run** of `sensor_listen`. -/
theorem judged_of_steps (hgroup : config.sensorGroups[groupId.toNat]? = some group) {turns : Nat}
    {h : List (Call Act.Ans)} {p : Prog Act Act.Ans (Except RunError Exit)}
    (hs : Prog.Steps (sensorListen F config profile groupId logFiles turns).run h p) :
    Judged F profile group (record group.size h) :=
  invariant_of_recorded (recorded_sensorListen hgroup turns) hs Judged.start
    fun _ _ hpermits hj => hj.next hpermits

/-! ## 2. Exact arithmetic -/

section Exact

variable {sensor : Sensor} {min max : ℚ}

theorem one_le_width (hwidth : sensor.rollingAverageWidth ≠ some 0) :
    (1 : ℚ) ≤ sensor.width.toNat := by
  have hne : sensor.width.toNat ≠ 0 := fun h => Sensor.width_ne_zero hwidth (UInt32.toNat_inj.mp h)
  exact_mod_cast Nat.one_le_iff_ne_zero.mpr hne

/-- **The code's rolling average is a rolling average.** -/
theorem rollingAvg_exact (hwidth : sensor.rollingAverageWidth ≠ some 0) (profile : Profile)
    (average calibratedValue : ℚ) :
    (sensor.rollingAvg profile average calibratedValue).value
      = some (RollingAverage.step (sensor.width.toNat : ℚ) average calibratedValue) := by
  have hle : (1 : UInt32) ≤ sensor.width := by
    rw [UInt32.le_iff_toNat_le]
    exact_mod_cast one_le_width hwidth
  have hweight : ((sensor.width - 1).toNat : ℚ) = sensor.width.toNat - 1 := by
    rw [UInt32.toNat_sub_of_le _ _ hle, Nat.cast_sub (UInt32.le_iff_toNat_le.mp hle)]
    rfl
  rw [Sensor.rollingAvg_of_ne hwidth]
  simp only [F64.div, F64.add, F64.mul, F64.ofU32, hweight, RollingAverage.step]

/-- The code's average after some readings, from any average on. -/
theorem foldlM_exact (hwidth : sensor.rollingAverageWidth ≠ some 0) (profile : Profile)
    (readings : List UInt16) (average : ℚ) :
    readings.foldlM (fun average reading =>
        (sensor.rollingAvg profile average (sensor.calibrate reading)).value) average
      = some (RollingAverage.after (sensor.width.toNat : ℚ) average
        (readings.map sensor.calibrate)) := by
  induction readings generalizing average with
  | nil => rfl
  | cons reading readings ih =>
    rw [List.foldlM_cons, rollingAvg_exact hwidth, Option.bind_eq_bind, Option.bind_some, ih]
    rfl

theorem seed_mem (hrange : sensor.range = some (min, max)) (hle : min ≤ max) :
    (sensor.seed : ℚ) = (min + max) / 2 ∧ (sensor.seed : ℚ) ∈ Set.Icc min max := by
  have hseed : (sensor.seed : ℚ) = (min + max) / 2 := by
    unfold Sensor.seed
    rw [hrange]
    rfl
  rw [hseed]
  refine ⟨rfl, ?_, ?_⟩
  · linarith
  · linarith

/-- **Readings in range keep the average in range.** -/
theorem averageAfter_mem (hwidth : sensor.rollingAverageWidth ≠ some 0)
    (hrange : sensor.range = some (min, max)) (hle : min ≤ max) {readings : List UInt16}
    (hreadings : ∀ reading ∈ readings, (sensor.calibrate reading : ℚ) ∈ Set.Icc min max) {avg : ℚ}
    (havg : sensor.averageAfter profile readings = some avg) : avg ∈ Set.Icc min max := by
  rw [Sensor.averageAfter, foldlM_exact hwidth] at havg
  obtain rfl := Option.some.inj havg
  refine RollingAverage.after_mem (one_le_width hwidth) (seed_mem hrange hle).2 ?_
  intro value hvalue
  obtain ⟨reading, hreading, rfl⟩ := List.mem_map.mp hvalue
  exact hreadings reading hreading

theorem outOfBounds_iff (hrange : sensor.range = some (min, max)) (avg : ℚ) :
    sensor.outOfBounds avg = true ↔ avg < min ∨ max < avg := by
  unfold Sensor.outOfBounds
  rw [hrange]
  simp [F64.lt, F64.ofRat]

end Exact

/-! ## 3. No false alarm -/

/-- The samples of the sensor calibrate into these bounds. -/
def Record.InRange (γ : Record) (group : SensorGroup) (idx : Fin group.size) (min max : ℚ) : Prop :=
  ∀ s ∈ γ.ofSensor idx, ((group.sensor idx).calibrate s.reading : ℚ) ∈ Set.Icc min max

/-- **No false alarm.**  While all samples of a sensor are in its range, its average is, after each
sensor of each turn of the loop; and none of its samples starts a stop. -/
theorem no_false_alarm (config : Configuration) (profile : Profile) (groupId : UInt8)
    (logFiles : List LogFile) (group : SensorGroup) (idx : Fin group.size) (min max : ℚ)
    (hgroup : config.sensorGroups[groupId.toNat]? = some group)
    (hrange : (group.sensor idx).range = some (min, max)) (hle : min ≤ max)
    (hwidth : (group.sensor idx).rollingAverageWidth ≠ some 0) :
    (∀ turns sensors h locals,
      Prog.Steps (sampledFor ℚ config profile group groupId logFiles turns sensors).run h
        (.ret (.ok (.inl locals))) →
      (record group.size h).InRange group idx min max →
      locals.rollingAverages.get idx ∈ Set.Icc min max) ∧
    ∀ turns h p, Prog.Steps (sensorListen ℚ config profile groupId logFiles turns).run h p →
      (record group.size h).InRange group idx min max →
      ∀ s ∈ (record group.size h).ofSensor idx, s.number ∉ (record group.size h).stops := by
  constructor
  · intro turns sensors h locals hs hin
    have hrests := returned_of_recorded (recorded_sampledFor turns sensors) hs
    refine averageAfter_mem hwidth hrange hle ?_ (hrests.averages idx)
    intro reading hreading
    obtain ⟨s, hs, rfl⟩ := List.mem_map.mp hreading
    exact hin s hs
  · intro turns h p hs hin s hmem hstop
    have hj := judged_of_steps hgroup hs
    obtain ⟨s', idx', hs', hidx', avg, havg, hout⟩ := hj.stopped _ hstop
    rw [Record.ofSensor, List.mem_filter, decide_eq_true_eq] at hmem
    -- the stop is about this sensor
    obtain rfl : s' = s := Option.some.inj (hs'.symm.trans (hj.get hmem.1))
    obtain rfl : idx' = idx := Fin.ext (hidx'.symm.trans hmem.2)
    have hmean : avg ∈ Set.Icc min max := by
      refine averageAfter_mem hwidth hrange hle ?_ havg
      intro reading hreading
      obtain ⟨s, hs, rfl⟩ := List.mem_map.mp hreading
      exact hin s (((List.take_sublist _ _).filter _).subset hs)
    rcases (outOfBounds_iff hrange avg).mp hout with hlt | hlt
    · exact absurd hmean.1 (not_le.mpr hlt)
    · exact absurd hmean.2 (not_le.mpr hlt)

/-- A sensor whose readings are in range, with one that fails in between. -/
theorem healthy_sensor : (∃ h locals,
      Prog.Steps (sampledFor ℚ (.oneSensor 10 (some 4)) .release (.oneSensor 10 (some 4)) 0 [⟨0, 0⟩]
        2 1).run h (.ret (.ok (.inl locals))) ∧
      ((record 1 h).ofSensor 0).map Sample.reading = [40, 100] ∧
      locals.rollingAverages.get SensorGroup.theSensor ∈ Set.Icc 0 100) ∧
    ∃ h p, Prog.Steps (sensorListen ℚ (.oneSensor 10 (some 4)) .release 0 [⟨0, 0⟩] 3).run h p ∧
      ((record 1 h).ofSensor 0).map Sample.reading = [40, 100] ∧
      ∀ s ∈ (record 1 h).ofSensor 0, s.number ∉ (record 1 h).stops := by
  have hin : ∀ h, ((record 1 h).ofSensor 0).map Sample.reading = [40, 100] →
      (record 1 h).InRange (.oneSensor 10 (some 4)) SensorGroup.theSensor 0 100 := by
    intro h hread s hs
    have hmem : s.reading ∈ [40, 100] := by
      rw [← hread]
      exact List.mem_map_of_mem hs
    rcases List.mem_pair.mp hmem with hs | hs
    · rw [hs]
      decide +kernel
    · rw [hs]
      decide +kernel
  have hfalse := no_false_alarm (.oneSensor 10 (some 4)) .release 0 [⟨0, 0⟩] (.oneSensor 10 (some 4))
    SensorGroup.theSensor 0 100 rfl rfl (by norm_num) nofun
  -- the reading of the second round fails
  let ω : Nat → World := fun n => { World.fine with
    adcResult := if n < 16 then .ok 40 else if n < 32 then .error .gpio else .ok 100 }
  constructor
  · obtain ⟨a, h, hs, hp⟩ := exists_steps (M := controller (.oneSensor 10 (some 4)))
      (p := (sampledFor ℚ (.oneSensor 10 (some 4)) .release (.oneSensor 10 (some 4)) 0 [⟨0, 0⟩]
        2 1).run) (ω := ω) (s := .new [false])
      (P := fun a h => decide (((record 1 h).ofSensor 0).map Sample.reading = [40, 100]) && goesOn a)
      (by decide +kernel)
    simp only [Bool.and_eq_true, decide_eq_true_eq] at hp
    obtain ⟨hread, hinl⟩ := hp
    obtain ⟨locals, rfl⟩ := exists_of_goesOn hinl
    exact ⟨h, locals, hs, hread, hfalse.1 2 1 h locals hs (hin h hread)⟩
  · obtain ⟨a, h, hs, hp⟩ := exists_steps (M := controller (.oneSensor 10 (some 4)))
      (p := (sensorListen ℚ (.oneSensor 10 (some 4)) .release 0 [⟨0, 0⟩] 3).run) (ω := ω)
      (s := .new [false])
      (P := fun _ h => decide (((record 1 h).ofSensor 0).map Sample.reading = [40, 100]))
      (by decide +kernel)
    have hread := of_decide_eq_true hp
    exact ⟨h, _, hs, hread, hfalse.2 3 h _ hs (hin h hread)⟩

/-! ## 4. Late alarms -/

/-- The samples of a sensor that are over. -/
def Record.overOf (γ : Record) (idx : Nat) : List Sample :=
  (γ.samples.take γ.checked).filter (·.sensor = idx)

/-- If the first `n` of these samples are bad, one of them starts a stop. -/
def Detected (γ : Record) (sensor : Sensor) (n : Nat) (bad : ℚ → Prop) (samples : List Sample) :
    Prop :=
  n ≤ samples.length → (∀ s ∈ samples.take n, bad (sensor.calibrate s.reading)) →
    ∃ s ∈ samples.take n, s.number ∈ γ.stops

theorem overOf_initial (γ : Record) (idx : Nat) : γ.overOf idx <+: γ.ofSensor idx :=
  (List.take_prefix _ _).filter _

/-- Up to a sample, a sensor was read as its samples up to there say. -/
theorem Judged.upTo (h : Judged F profile group γ) {idx : Nat} {before after : List Sample}
    {s : Sample} (hof : γ.ofSensor idx = before ++ s :: after) :
    γ.upTo (s.number + 1) idx = (before ++ [s]).map Sample.reading := by
  obtain ⟨l₁, l₂, hl, hbefore, hrest⟩ := List.filter_eq_append_iff.mp hof
  obtain ⟨l₃, l₄, rfl, hother, hs, -⟩ := List.filter_eq_cons_iff.mp hrest
  have hsamples : γ.samples = (l₁ ++ l₃) ++ [s] ++ l₄ := by simp [hl]
  have hnumber : s.number = (l₁ ++ l₃).length := by
    refine h.number ?_
    rw [hsamples, List.append_assoc, List.getElem?_append_right le_rfl]
    simp
  have htake : γ.samples.take (s.number + 1) = (l₁ ++ l₃) ++ [s] := by
    rw [hsamples, hnumber]
    exact List.take_left' (by rw [List.length_append, List.length_singleton])
  have hnone : l₃.filter (·.sensor = idx) = [] := List.filter_eq_nil_iff.mpr hother
  rw [Record.upTo, htake, List.filter_append, List.filter_append, hbefore, hnone]
  simp [hs]

/-- **A sample that is over** has started a stop, if the average after it is out of its range. -/
theorem Judged.stop (h : Judged F profile group γ) {idx : Fin group.size}
    {before after : List Sample} {s : Sample} (hof : γ.ofSensor idx = before ++ s :: after)
    (hover : s ∈ γ.overOf idx) :
    ∃ avg : F, (group.sensor idx).averageAfter profile ((before ++ [s]).map Sample.reading) = some avg ∧
      ((group.sensor idx).outOfBounds avg = true → s.number ∈ γ.stops) := by
  rw [Record.overOf, List.mem_filter, decide_eq_true_eq] at hover
  obtain ⟨m, hm⟩ := List.getElem?_of_mem hover.1
  have hlt : m < γ.checked := by
    have := (List.getElem?_eq_some_iff.mp hm).1
    rw [List.length_take] at this
    omega
  rw [List.getElem?_take_of_lt hlt] at hm
  obtain ⟨s', idx', out, hs', hidx', ⟨avg, havg, rfl⟩, hstop⟩ := h.judged m hlt
  obtain rfl : s' = s := Option.some.inj (hs'.symm.trans hm)
  obtain rfl : idx' = idx := Fin.ext (hidx'.symm.trans hover.2)
  rw [← h.number hm, h.upTo hof] at havg
  refine ⟨avg, havg, fun hout => ?_⟩
  rw [h.number hm]
  exact hstop hout

/-- **The `n`-th of these samples starts a stop**, if the average is out of its range by then. -/
theorem Judged.detected (h : Judged ℚ profile group γ) {idx : Fin group.size} {n : Nat}
    {bad : ℚ → Prop} {earlier : List Sample} (hearlier : earlier <+: γ.ofSensor idx) (hn : n ≠ 0)
    (hout : ∀ (samples : List Sample) (avg : ℚ), samples.length = n →
      (∀ s ∈ samples, bad ((group.sensor idx).calibrate s.reading)) →
      (group.sensor idx).averageAfter profile ((earlier ++ samples).map Sample.reading) = some avg →
      (group.sensor idx).outOfBounds avg = true) :
    Detected γ (group.sensor idx) n bad ((γ.overOf idx).drop earlier.length) := by
  intro hlength hbad
  rw [List.length_drop] at hlength
  obtain ⟨later, hlater⟩ : earlier <+: γ.overOf idx :=
    List.prefix_of_prefix_length_le hearlier (overOf_initial γ idx) (by omega)
  obtain ⟨rest, hrest⟩ := overOf_initial γ idx
  rw [← hlater, List.drop_left] at hbad ⊢
  have hlen : (later.take n).length = n := by
    rw [← hlater, List.length_append] at hlength
    rw [List.length_take]
    omega
  obtain ⟨these, s, hthese⟩ : ∃ these s, later.take n = these ++ [s] := by
    rcases List.eq_nil_or_concat (later.take n) with hnil | hconcat
    · rw [hnil] at hlen
      exact absurd hlen.symm hn
    · obtain ⟨these, s, hconcat⟩ := hconcat
      exact ⟨these, s, by rw [hconcat, List.concat_eq_append]⟩
  have hs : s ∈ later.take n := by simp [hthese]
  have hof : γ.ofSensor idx = (earlier ++ these) ++ s :: (later.drop n ++ rest) := by
    calc γ.ofSensor idx = earlier ++ (later.take n ++ later.drop n) ++ rest := by
          rw [List.take_append_drop, hlater, hrest]
      _ = (earlier ++ these) ++ s :: (later.drop n ++ rest) := by simp [hthese]
  obtain ⟨avg, havg, hstop⟩ := h.stop hof
    (hlater ▸ List.mem_append_right _ (List.mem_of_mem_take hs))
  refine ⟨s, hs, hstop (hout _ avg hlen hbad ?_)⟩
  rw [hthese, ← List.append_assoc]
  exact havg

/-- The part of the distance to a value that one sample at that value leaves the average. -/
def Sensor.leaves (sensor : Sensor) : ℚ := (sensor.width.toNat - 1) / sensor.width.toNat

/-- **Detection in a computable number of samples.**  These samples of the sensor follow one after
which its average was `a`.  When the first `n` of them are all at `v` or above, or all at `v` or below
it, and `n` satisfies the inequality, which it can only do for a `v` out of the range, one of them
starts a stop. -/
def DetectsIn (γ : Record) (sensor : Sensor) (min max a : ℚ) (samples : List Sample) : Prop :=
  ∀ v n, (sensor.leaves ^ n * (v - a) < v - max → Detected γ sensor n (v ≤ ·) samples) ∧
    (sensor.leaves ^ n * (a - v) < min - v → Detected γ sensor n (· ≤ v) samples)

/-- Samples out of the range draw the average out of it. -/
theorem Judged.detectsIn (h : Judged ℚ profile group γ) {idx : Fin group.size} {min max a : ℚ}
    (hwidth : (group.sensor idx).rollingAverageWidth ≠ some 0)
    (hrange : (group.sensor idx).range = some (min, max)) (ha : a ∈ Set.Icc min max)
    {earlier : List Sample} (hearlier : earlier <+: γ.ofSensor idx)
    (hbefore : (group.sensor idx).averageAfter profile (earlier.map Sample.reading) = some a) :
    DetectsIn γ (group.sensor idx) min max a ((γ.overOf idx).drop earlier.length) := by
  have hone := one_le_width hwidth
  have hafter : ∀ (samples : List Sample) (avg : ℚ), (group.sensor idx).averageAfter profile
      ((earlier ++ samples).map Sample.reading) = some avg →
      avg = RollingAverage.after ((group.sensor idx).width.toNat : ℚ) a
        ((samples.map Sample.reading).map (group.sensor idx).calibrate) := by
    intro samples avg havg
    rw [Sensor.averageAfter] at hbefore havg
    rw [List.map_append, List.foldlM_append, hbefore, Option.bind_eq_bind, Option.bind_some,
      foldlM_exact hwidth] at havg
    exact (Option.some.inj havg).symm
  intro v n
  constructor
  · intro hn
    refine h.detected hearlier ?_ fun samples avg hlength hbad havg => ?_
    · rintro rfl
      rw [pow_zero, one_mul] at hn
      linarith [ha.2]
    · have hle : v - avg ≤ _ * (v - a) :=
        hafter samples avg havg ▸ RollingAverage.sub_after_le hone (by simpa using hbad)
      rw [List.length_map, List.length_map, hlength] at hle
      exact (outOfBounds_iff hrange avg).mpr (Or.inr (by linarith [hle.trans_lt hn]))
  · intro hn
    refine h.detected hearlier ?_ fun samples avg hlength hbad havg => ?_
    · rintro rfl
      rw [pow_zero, one_mul] at hn
      linarith [ha.1]
    · have hle : avg - v ≤ _ * (a - v) :=
        hafter samples avg havg ▸ RollingAverage.after_sub_le hone (by simpa using hbad)
      rw [List.length_map, List.length_map, hlength] at hle
      exact (outOfBounds_iff hrange avg).mpr (Or.inl (by linarith [hle.trans_lt hn]))

/-- **A violation is detected** within a number of samples that follows from the width of the average:
from the start, where the average is the middle of the range, and from any later moment at which it is
in the range. -/
theorem violation_detected (config : Configuration) (profile : Profile) (groupId : UInt8)
    (logFiles : List LogFile) (group : SensorGroup) (idx : Fin group.size) (min max : ℚ)
    (hgroup : config.sensorGroups[groupId.toNat]? = some group)
    (hrange : (group.sensor idx).range = some (min, max)) (hle : min ≤ max)
    (hwidth : (group.sensor idx).rollingAverageWidth ≠ some 0) :
    (∀ turns h p, Prog.Steps (sensorListen ℚ config profile groupId logFiles turns).run h p →
      DetectsIn (record group.size h) (group.sensor idx) min max ((min + max) / 2)
        ((record group.size h).overOf idx)) ∧
    ∀ turns sensors h locals,
      Prog.Steps (sampledFor ℚ config profile group groupId logFiles turns sensors).run h
        (.ret (.ok (.inl locals))) →
      locals.rollingAverages.get idx ∈ Set.Icc min max → ∀ turns h' p,
      Prog.Steps (sensorListen ℚ config profile groupId logFiles turns).run (h ++ h') p →
      DetectsIn (record group.size (h ++ h')) (group.sensor idx) min max
        (locals.rollingAverages.get idx) (((record group.size (h ++ h')).overOf idx).drop
          ((record group.size h).ofSensor idx).length) := by
  constructor
  · intro turns h p hs
    obtain ⟨hseed, hmem⟩ := seed_mem hrange hle
    rw [← hseed]
    exact (judged_of_steps hgroup hs).detectsIn hwidth hrange hmem List.nil_prefix rfl
  · intro turns sensors h locals hs hmem turns' h' p hs'
    have hrests := returned_of_recorded (recorded_sampledFor turns sensors) hs
    exact (judged_of_steps hgroup hs').detectsIn hwidth hrange hmem
      ((samples_grow _ h h').filter _) (hrests.averages idx)

/-- Two samples far above the range, and the second starts a stop: the width is 4, so the first moves
the average from 50 to 87.5 only. -/
theorem second_sample_detected : ∃ h p,
    Prog.Steps (sensorListen ℚ (.oneSensor 10 (some 4)) .release 0 [⟨0, 0⟩] 2).run h p ∧
    ∃ s ∈ (((record 1 h).overOf 0).take 2), s.number ∈ (record 1 h).stops := by
  obtain ⟨a, h, hs, hp⟩ := exists_steps
    (M := controller (.oneSensor 10 (some 4)))
    (p := (sensorListen ℚ (.oneSensor 10 (some 4)) .release 0 [⟨0, 0⟩] 2).run)
    (ω := fun _ => { World.fine with adcResult := .ok 200 }) (s := .new [false])
    (P := fun _ h => decide (((record 1 h).overOf 0).map Sample.reading = [200, 200]))
    (by decide +kernel)
  refine ⟨h, _, hs, ?_⟩
  have hread : ((record 1 h).overOf 0).map Sample.reading = [200, 200] := of_decide_eq_true hp
  refine (((violation_detected (.oneSensor 10 (some 4)) .release 0 [⟨0, 0⟩] (.oneSensor 10 (some 4))
    SensorGroup.theSensor 0 100 rfl rfl (by norm_num) nofun).1 2 h _ hs) 200 2).1 ?_ ?_ ?_
  · decide +kernel
  · have := congrArg List.length hread
    rw [List.length_map] at this
    exact this.ge
  · intro s hs
    have : s.reading ∈ [200, 200] := by
      rw [← hread]
      exact List.mem_map_of_mem (List.mem_of_mem_take hs)
    obtain hs : s.reading = 200 := by simpa using this
    rw [hs]
    decide +kernel

end Slonk
