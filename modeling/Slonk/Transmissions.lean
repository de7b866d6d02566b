/-
# Updates of the dashboard

In each round `sensor_listen` looks whether its transmission period has passed since the last time it
had, and if so sends the readings it has made since then, if there is a dashboard to send them to.  The
check, and the time it is compared with the next time, are two readings of the clock, with the `send`
between them.

On a clock that is never set back, two rounds that pass the check are more than the period apart.  A
message has the latest reading of each sensor that was read since the round before that passed the
check, in the order of the sensors, and no other.  So no reading is handed to `send` twice, with a
dashboard that comes and goes as it likes (`updates_fresh_and_unrepeated`).
-/
import Slonk.Sampling

namespace Slonk

open Concurrency

variable {F : Type} [F64 F] {config : Configuration} {profile : Profile} {group : SensorGroup}
  {groupId : UInt8} {logFiles : List LogFile} {period : Duration} {γ : Record}

/-! ## 1. The latest samples -/

/-- They are the last samples of their sensors. -/
theorem mem_latest {size : Nat} {samples : List Sample} {s : Sample} :
    s ∈ Record.latest size samples ↔
      s.sensor < size ∧ (samples.filter (·.sensor = s.sensor)).getLast? = some s := by
  rw [Record.latest, List.mem_filterMap]
  constructor
  · rintro ⟨idx, hidx, hlast⟩
    have hmem := List.mem_of_getLast? hlast
    rw [List.mem_filter, decide_eq_true_eq] at hmem
    rw [hmem.2]
    exact ⟨List.mem_range.mp hidx, hlast⟩
  · rintro ⟨hlt, hlast⟩
    exact ⟨s.sensor, List.mem_range.mpr hlt, hlast⟩

theorem latest_subset {size : Nat} {samples : List Sample} {s : Sample}
    (h : s ∈ Record.latest size samples) : s ∈ samples :=
  List.mem_of_mem_filter (List.mem_of_getLast? (mem_latest.mp h).2)

/-- There is one of each sensor that has any, in increasing order. -/
theorem latest_sensors (size : Nat) (samples : List Sample) :
    (Record.latest size samples).map Sample.sensor
      = (List.range size).filter fun idx => samples.any (·.sensor = idx) := by
  rw [Record.latest, List.map_filterMap, ← List.filterMap_eq_filter]
  refine List.filterMap_congr fun idx _ => ?_
  cases hlast : (samples.filter (·.sensor = idx)).getLast? with
  | none =>
    have hnil : samples.any (·.sensor = idx) = false := by
      rw [List.getLast?_eq_none_iff, List.filter_eq_nil_iff] at hlast
      simpa using hlast
    simp [Option.guard, hnil]
  | some s =>
    have hmem := List.mem_of_getLast? hlast
    rw [List.mem_filter, decide_eq_true_eq] at hmem
    have hany : samples.any (·.sensor = idx) = true := by
      simpa using ⟨s, hmem⟩
    simp [hany, hmem.2]

theorem latest_nodup (size : Nat) (samples : List Sample) : (Record.latest size samples).Nodup := by
  refine List.Nodup.of_map Sample.sensor ?_
  rw [latest_sensors]
  exact List.nodup_range.filter _

/-- In the order of the sensors, the last of these samples of each sensor that has any. -/
def IsLatest (size : Nat) (samples listed : List Sample) : Prop :=
  listed.map Sample.sensor = (List.range size).filter (fun idx => samples.any (·.sensor = idx)) ∧
    ∀ s ∈ listed, (samples.filter (·.sensor = s.sensor)).getLast? = some s

theorem isLatest_latest (size : Nat) (samples : List Sample) :
    IsLatest size samples (Record.latest size samples) :=
  ⟨latest_sensors size samples, fun _ hs => (mem_latest.mp hs).2⟩

/-! ## 2. No reading is sent twice -/

/-- **What has been handed over is older** than what may be handed over next. -/
structure Handing (γ : Record) : Prop where
  ordered : (γ.due ++ γ.fresh).Pairwise fun s s' => s.number < s'.number
  bounded : ∀ s ∈ γ.due ++ γ.fresh, s.number < γ.samples.length
  older : ∀ s ∈ γ.handed, ∀ s' ∈ γ.due ++ γ.fresh, s.number < s'.number
  past : ∀ s ∈ γ.handed, s.number < γ.samples.length
  nodup : γ.handed.Nodup

theorem Handing.start : Handing .start := by
  constructor <;> simp [Record.start]

theorem Handing.timed (h : Handing γ) (time : Nat) : Handing (γ.timed time) := by
  unfold Record.timed
  split
  · exact { h with }
  · rename_i reading _
    constructor
    · rw [← List.append_assoc]
      refine List.pairwise_append.mpr ⟨h.ordered, List.pairwise_singleton _ _, fun s hs s' hs' => ?_⟩
      rw [List.mem_singleton.mp hs']
      exact h.bounded s hs
    · intro s hs
      rw [← List.append_assoc] at hs
      rw [List.length_append, List.length_singleton]
      rcases List.mem_append.mp hs with hs | hs
      · exact (h.bounded s hs).trans (Nat.lt_succ_self _)
      · rw [List.mem_singleton.mp hs]
        exact Nat.lt_succ_self _
    · intro s hs s' hs'
      rw [← List.append_assoc] at hs'
      rcases List.mem_append.mp hs' with hs' | hs'
      · exact h.older s hs s' hs'
      · rw [List.mem_singleton.mp hs']
        exact h.past s hs
    · intro s hs
      rw [List.length_append, List.length_singleton]
      exact (h.past s hs).trans (Nat.lt_succ_self _)
    · exact h.nodup

theorem Handing.passed (h : Handing γ) : Handing γ.passed where
  ordered := by
    rw [Record.passed, List.append_nil]
    exact (List.pairwise_append.mp h.ordered).2.1
  bounded s hs := by
    rw [Record.passed, List.append_nil] at hs
    exact h.bounded s (List.mem_append_right _ hs)
  older s hs s' hs' := by
    rw [Record.passed, List.append_nil] at hs'
    exact h.older s hs s' (List.mem_append_right _ hs')
  past := h.past
  nodup := h.nodup

theorem Handing.sent (h : Handing γ) (size : Nat) : Handing (γ.sent size) := by
  obtain ⟨-, hfresh, hlt⟩ := List.pairwise_append.mp h.ordered
  have hdue : ∀ s ∈ Record.latest size γ.due, s ∈ γ.due ++ γ.fresh := fun s hs =>
    List.mem_append_left _ (latest_subset hs)
  constructor
  · exact hfresh
  · exact fun s hs => h.bounded s (List.mem_append_right _ hs)
  · intro s hs s' hs'
    rcases List.mem_append.mp hs with hs | hs
    · exact h.older s hs s' (List.mem_append_right _ hs')
    · exact hlt s (latest_subset hs) s' hs'
  · intro s hs
    rcases List.mem_append.mp hs with hs | hs
    · exact h.past s hs
    · exact h.bounded s (hdue s hs)
  · refine List.nodup_append.mpr ⟨h.nodup, latest_nodup size _, fun s hs s' hs' heq => ?_⟩
    subst heq
    exact absurd (h.older s hs s (hdue s hs')) (lt_irrefl _)

/-- **One call.** -/
theorem Handing.next (h : Handing γ) (size : Nat) (c : Call Act.Ans) : Handing (γ.next size c) := by
  unfold Record.next
  split
  case h_3 => exact h.timed _
  case h_6 => exact h.passed
  case h_7 => exact h.sent size
  all_goals exact { h with }

/-- What is handed to `send` is different each time, in any history. -/
theorem handing_record (size : Nat) (h : List (Call Act.Ans)) : Handing (record size h) := by
  induction h using List.reverseRecOn with
  | nil => exact .start
  | append_singleton h c ih =>
    rw [record_concat]
    exact ih.next size c

/-! ## 3. The rate -/

/-- On a clock that is never set back, the times at which the check was passed are more than a period
apart. -/
def Spaced (period : Duration) (γ : Record) : Prop :=
  γ.times.Pairwise (· ≤ ·) → γ.passes.Pairwise fun time time' => time + period < time'

theorem Spaced.next (h : Spaced period γ) {c : Call Act.Ans}
    (hpermits : γ.Permits F profile group groupId period c.op) :
    Spaced period (γ.next group.size c) := by
  unfold Record.next
  split
  case h_3 time =>
    intro hsorted
    unfold Record.timed at hsorted ⊢
    split at hsorted
    · exact h (List.pairwise_append.mp hsorted).1
    · exact h (List.pairwise_append.mp hsorted).1
  case h_6 =>
    intro hsorted
    refine List.pairwise_append.mpr ⟨h hsorted, ?_, fun time htime time' htime' => ?_⟩
    · cases γ.times.getLast? with
      | none => exact .nil
      | some time => exact List.pairwise_singleton _ _
    · exact hpermits hsorted time htime time' (Option.mem_toList.mp htime')
  all_goals exact h

/-- **Dashboard updates are fresh, unrepeated and rate-limited**, whatever fails and whether there is a
dashboard or not.  `due` is what was read between the last two times the check was passed. -/
theorem updates_fresh_and_unrepeated (F : Type) [F64 F] (config : Configuration) (profile : Profile)
    (groupId : UInt8) (logFiles : List LogFile) (group : SensorGroup)
    (hgroup : config.sensorGroups[groupId.toNat]? = some group) (turns : Nat)
    (h : List (Call Act.Ans)) (p : Prog Act Act.Ans (Except RunError Exit))
    (hs : Prog.Steps (sensorListen F config profile groupId logFiles turns).run h p) :
    (∀ periods, group.periods.value = some periods →
      (record group.size h).times.Pairwise (· ≤ ·) →
      (record group.size h).passes.Pairwise fun time time' => time + periods.transmission < time') ∧
    (∀ before message answer after, h = before ++ ⟨.op (.send message), answer⟩ :: after →
      IsLatest group.size (record group.size before).due
        (Record.latest group.size (record group.size before).due) ∧
      message = .sensorValue groupId
        ((Record.latest group.size (record group.size before).due).map Sample.toReading)) ∧
    (record group.size h).handed.Nodup := by
  have hp : Recorded F profile group groupId group.transmissionPeriod .start
      (sensorListen F config profile groupId logFiles turns).run _ := recorded_sensorListen hgroup turns
  refine ⟨fun periods hperiods hsorted => ?_, ?_, (handing_record _ h).nodup⟩
  · have hspaced : Spaced group.transmissionPeriod (record group.size h) :=
      invariant_of_recorded hp hs (fun _ => .nil) fun _ _ hpermits hspaced => hspaced.next hpermits
    have hperiod : group.transmissionPeriod = periods.transmission := by
      rw [SensorGroup.transmissionPeriod, hperiods]
    exact hperiod ▸ hspaced hsorted
  · rintro before message answer after rfl
    exact ⟨isLatest_latest _ _, permits_of_recorded hp hs⟩

/-- Two rounds with a dashboard, each of which passes the check and sends a reading. -/
theorem two_updates : ∃ h p,
    Prog.Steps (sensorListen ℚ (.oneSensor 10 (some 1)) .release 0 [⟨0, 0⟩] 2).run h p ∧
    (record 1 h).passes.length = 2 ∧ (record 1 h).handed.map Sample.number = [0, 1] ∧
    ((record 1 h).passes.Pairwise fun time time' => time + oneSecond / 10 < time') ∧
    (record 1 h).handed.Nodup := by
  obtain ⟨a, h, hs, hp⟩ := exists_steps (M := controller (.oneSensor 10 (some 1)))
    (p := (sensorListen ℚ (.oneSensor 10 (some 1)) .release 0 [⟨0, 0⟩] 2).run)
    (ω := fun n => { World.fine with now := n * 100000000 })
    (s := { Controller.new [false] with shared.toDash.dashChannel.val := some [] })
    (P := fun _ h => decide ((record 1 h).times.Pairwise (· ≤ ·) ∧ (record 1 h).passes.length = 2 ∧
      (record 1 h).handed.map Sample.number = [0, 1]))
    (by decide +kernel)
  obtain ⟨hsorted, hpasses, hhanded⟩ := of_decide_eq_true hp
  have hfresh := updates_fresh_and_unrepeated ℚ (.oneSensor 10 (some 1)) .release 0 [⟨0, 0⟩]
    (.oneSensor 10 (some 1)) rfl 2 h _ hs
  exact ⟨h, _, hs, hpasses, hhanded,
    hfresh.1 ⟨oneSecond / 10, oneSecond / 10, oneSecond / 10⟩ rfl hsorted, hfresh.2.2⟩

end Slonk
