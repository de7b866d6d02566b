/-
# What the validator finds

`Configuration::parse` makes four passes over a configuration it has deserialised.  Each error it
returns names a fault, and `ConfigError.Names` says what is then true of the configuration.  A
configuration it returns has no such fault: `Sound` says so of the clock, the sensors and the pins.
(Of the drivers that the procedures name it does not: see `Bounds.lean`.)

There are 26 legal pins, and a sound configuration uses each at most once.  Three of them are the
bus, so there are at most 23 drivers and chip selects together.
-/
import Slonk.Config

namespace Slonk

/-! ## 1. Faults -/

/-- **What an error says about the configuration.** -/
def ConfigError.Names (config : Configuration) : ConfigError → Prop
  | .malformed _ => False
  | .clockTooSlow => config.spiFrequencyClk.toNat < 10000
  | .noSuchAdc adc => ∃ group ∈ config.sensorGroups, ∃ sensor ∈ group.sensors,
      sensor.adc = adc ∧ config.adcCs.length ≤ adc.toNat
  | .badChannel channel => ∃ group ∈ config.sensorGroups, ∃ sensor ∈ group.sensors,
      sensor.channel = channel ∧ 8 ≤ channel.toNat
  | .noSuchDriver driverId => (∃ value,
      .actuate driverId value ∈ config.ignitionSequence ++ config.estopSequence) ∧
        config.drivers[driverId.toNat]? = none
  | .reservedPin pin => pin ∈ config.pins ∧ ¬ (2 ≤ pin.toNat ∧ pin.toNat ≤ 27)
  | .duplicatePin pin => ∃ i j : Nat, i < j ∧ config.pins[i]? = some pin ∧ config.pins[j]? = some pin

namespace Configuration

/-- **A configuration without faults** of its clock, its sensors and its pins. -/
structure Sound (config : Configuration) : Prop where
  clock : 10000 ≤ config.spiFrequencyClk.toNat
  adc : ∀ group ∈ config.sensorGroups, ∀ sensor ∈ group.sensors,
    ∃ pin, config.adcCs[sensor.adc.toNat]? = some pin
  channel : ∀ group ∈ config.sensorGroups, ∀ sensor ∈ group.sensors, sensor.channel.toNat < 8
  distinct : config.pins.Nodup
  legal : ∀ pin ∈ config.pins, 2 ≤ pin.toNat ∧ pin.toNat ≤ 27

variable {config : Configuration} {err : ConfigError}

/-! ## 2. The passes -/

theorem bind_error_iff {ε α β : Type} {x : Except ε α} {f : α → Except ε β} {e : ε} :
    (x >>= f) = .error e ↔ x = .error e ∨ ∃ a, x = .ok a ∧ f a = .error e := by
  cases x with
  | error e' => simp [bind, Except.bind]
  | ok a => simp [bind, Except.bind]

/-- A loop that fails does so in one of its turns. -/
theorem forM_error {ε α : Type} {f : α → Except ε Unit} {e : ε} {xs : List α}
    (h : xs.forM f = .error e) : ∃ x ∈ xs, f x = .error e := by
  induction xs with
  | nil => cases h
  | cons x xs ih =>
    have hcons : (x :: xs).forM f = (f x >>= fun _ => xs.forM f) := rfl
    rcases bind_error_iff.mp (hcons ▸ h) with hx | ⟨_, -, hxs⟩
    · exact ⟨x, List.mem_cons_self, hx⟩
    · obtain ⟨y, hy, hf⟩ := ih hxs
      exact ⟨y, List.mem_cons_of_mem _ hy, hf⟩

theorem checkClock_error (h : config.checkClock = .error err) : err.Names config := by
  unfold checkClock at h
  split at h
  · rename_i hlt
    cases h
    exact (hlt : _ < spiMinFrequency)
  · cases h

theorem checkSensors_error (h : config.checkSensors = .error err) : err.Names config := by
  obtain ⟨group, hgroup, h⟩ := forM_error h
  obtain ⟨sensor, hsensor, h⟩ := forM_error h
  split at h
  · rename_i hadc
    cases h
    exact ⟨group, hgroup, sensor, hsensor, rfl, hadc⟩
  · split at h
    · rename_i hchannel
      cases h
      exact ⟨group, hgroup, sensor, hsensor, rfl, UInt8.le_iff_toNat_le.mp hchannel⟩
    · cases h

theorem checkActuations_error (h : config.checkActuations = .error err) : err.Names config := by
  obtain ⟨procedure, hprocedure, h⟩ := forM_error h
  obtain ⟨step, hstep, h⟩ := forM_error h
  cases step with
  | sleep duration => cases h
  | actuate driverId value =>
    dsimp only at h
    split at h
    · rename_i hlt
      cases h
      refine ⟨⟨value, ?_⟩, List.getElem?_eq_none (by omega)⟩
      rcases List.mem_pair.mp hprocedure with rfl | rfl
      · exact List.mem_append_left _ hstep
      · exact List.mem_append_right _ hstep
    · cases h

theorem isLegal_iff (pin : UInt8) : isLegal pin = true ↔ 2 ≤ pin.toNat ∧ pin.toNat ≤ 27 := by
  simp [isLegal, UInt8.lt_iff_toNat_lt, UInt8.le_iff_toNat_le, Nat.succ_le_iff]

/-- One turn of the loop over the pins. -/
def checkPin (pinsUsed : List UInt8) (pin : UInt8) : Except ConfigError (List UInt8) :=
  if !isLegal pin then throw (.reservedPin pin)
  else if pinsUsed.contains pin then throw (.duplicatePin pin)
  else pure (pin :: pinsUsed)

theorem checkPins_eq : config.checkPins = discard (config.pins.foldlM checkPin []) := rfl

/-- **The loop over the pins fails** at a pin that is illegal or among those before it. -/
theorem checkPin_error : ∀ {rest used : List UInt8}, rest.foldlM checkPin used = .error err →
    ∃ before pin after, rest = before ++ pin :: after ∧
      ((err = .reservedPin pin ∧ isLegal pin = false) ∨
        (err = .duplicatePin pin ∧ (pin ∈ before ∨ pin ∈ used)))
  | [], _, h => by cases h
  | pin :: rest, used, h => by
    rw [List.foldlM_cons] at h
    cases hpin : checkPin used pin with
    | error e =>
      rw [hpin] at h
      cases h
      refine ⟨[], pin, rest, rfl, ?_⟩
      unfold checkPin at hpin
      split at hpin
      · rename_i hlegal
        cases hpin
        exact Or.inl ⟨rfl, by simpa using hlegal⟩
      · split at hpin
        · rename_i hused
          cases hpin
          exact Or.inr ⟨rfl, Or.inr (by simpa using hused)⟩
        · cases hpin
    | ok used' =>
      rw [hpin] at h
      obtain ⟨before, pin', after, rfl, herr⟩ := checkPin_error h
      obtain rfl : used' = pin :: used := by
        unfold checkPin at hpin
        split at hpin
        · cases hpin
        · split at hpin
          · cases hpin
          · cases hpin
            rfl
      refine ⟨pin :: before, pin', after, rfl, herr.imp_right ?_⟩
      rintro ⟨rfl, hmem | hmem⟩
      · exact ⟨rfl, Or.inl (List.mem_cons_of_mem _ hmem)⟩
      · rcases List.mem_cons.mp hmem with rfl | hmem
        · exact ⟨rfl, Or.inl List.mem_cons_self⟩
        · exact ⟨rfl, Or.inr hmem⟩

theorem checkPins_error (h : config.checkPins = .error err) : err.Names config := by
  have hfold : config.pins.foldlM checkPin [] = .error err := by
    rw [checkPins_eq] at h
    cases hf : config.pins.foldlM checkPin [] with
    | error e =>
      rw [hf] at h
      cases h
      rfl
    | ok used =>
      rw [hf] at h
      cases h
  obtain ⟨before, pin, after, hpins, ⟨rfl, hlegal⟩ | ⟨rfl, hmem⟩⟩ := checkPin_error hfold
  · refine ⟨by simp [hpins], fun h => ?_⟩
    rw [(isLegal_iff pin).mpr h] at hlegal
    cases hlegal
  · have hmem : pin ∈ before := by simpa using hmem
    obtain ⟨i, hi, hget⟩ := List.mem_iff_getElem.mp hmem
    refine ⟨i, before.length, hi, ?_, ?_⟩
    · rw [hpins, List.getElem?_append_left hi, List.getElem?_eq_getElem hi, hget]
    · rw [hpins, List.getElem?_append_right le_rfl, Nat.sub_self, List.getElem?_cons_zero]

/-- **The loop over the pins gets through** exactly when no pin is illegal, or was there before. -/
theorem checkPin_ok : ∀ (rest : List UInt8) {used : List UInt8}, used.Nodup →
    ((∃ used', rest.foldlM checkPin used = .ok used') ↔
      (rest.reverse ++ used).Nodup ∧ ∀ pin ∈ rest, isLegal pin = true)
  | [], used, hused => by simpa [pure, Except.pure] using hused
  | pin :: rest, used, hused => by
    rw [List.foldlM_cons, List.forall_mem_cons, List.reverse_cons, List.append_assoc,
      List.singleton_append]
    by_cases hlegal : isLegal pin = true
    · by_cases hmem : pin ∈ used
      · have hpin : checkPin used pin = .error (.duplicatePin pin) := by
          simp [checkPin, hlegal, hmem, throw, throwThe, MonadExceptOf.throw]
        rw [hpin]
        constructor
        · rintro ⟨used', h⟩
          cases h
        · rintro ⟨hnodup, -⟩
          exact absurd hmem (List.nodup_cons.mp hnodup.of_append_right).1
      · have hpin : checkPin used pin = .ok (pin :: used) := by
          simp [checkPin, hlegal, hmem, pure, Except.pure]
        rw [hpin]
        refine (checkPin_ok rest (List.nodup_cons.mpr ⟨hmem, hused⟩)).trans ?_
        simp [hlegal]
    · have hpin : checkPin used pin = .error (.reservedPin pin) := by
        simp [checkPin, hlegal, throw, throwThe, MonadExceptOf.throw]
      rw [hpin]
      constructor
      · rintro ⟨used', h⟩
        cases h
      · rintro ⟨-, h, -⟩
        exact absurd h hlegal

/-- **The pins are accepted** exactly when they are distinct and legal. -/
theorem checkPins_ok_iff :
    config.checkPins = .ok () ↔ config.pins.Nodup ∧ ∀ pin ∈ config.pins, isLegal pin = true := by
  have hloop := checkPin_ok config.pins List.nodup_nil
  rw [List.append_nil, List.nodup_reverse] at hloop
  rw [← hloop, checkPins_eq]
  cases config.pins.foldlM checkPin [] with
  | error e => simp [discard, Functor.discard, Functor.mapConst, Except.map]
  | ok used => simp [discard, Functor.discard, Functor.mapConst, Except.map]

/-! ## 3. The whole -/

/-- **Every error names a fault that is there.** -/
theorem validate_error (h : config.validate = .error err) : err.Names config := by
  rcases bind_error_iff.mp h with h | ⟨_, -, h⟩
  · exact checkClock_error h
  rcases bind_error_iff.mp h with h | ⟨_, -, h⟩
  · exact checkSensors_error h
  rcases bind_error_iff.mp h with h | ⟨_, -, h⟩
  · exact checkActuations_error h
  · exact checkPins_error h

/-- **An accepted configuration is sound.** -/
theorem Accepted.isSound (h : config.Accepted) : config.Sound := by
  obtain ⟨hclock, -, -, hpins⟩ := h.checks
  obtain ⟨hdistinct, hlegal⟩ := checkPins_ok_iff.mp hpins
  refine ⟨?_, ?_, ?_, hdistinct, fun pin hpin => (isLegal_iff pin).mp (hlegal pin hpin)⟩
  · unfold checkClock at hclock
    split at hclock
    · cases hclock
    · rename_i hlt
      exact Nat.not_lt.mp hlt
  · intro group hgroup sensor hsensor
    exact ⟨_, List.getElem?_eq_getElem (h.sensor_valid hgroup hsensor).1⟩
  · intro group hgroup sensor hsensor
    exact UInt8.lt_iff_toNat_lt.mp (h.sensor_valid hgroup hsensor).2

/-- **There are only so many pins**: with the three of the bus, at most 26. -/
theorem Sound.pins_le (h : config.Sound) : config.drivers.length + config.adcCs.length ≤ 23 := by
  have hsub : (config.pins.map UInt8.toNat).toFinset ⊆ Finset.Icc 2 27 := by
    intro n hn
    obtain ⟨pin, hpin, rfl⟩ := List.mem_map.mp (List.mem_toFinset.mp hn)
    exact Finset.mem_Icc.mpr (h.legal pin hpin)
  have hnodup : (config.pins.map UInt8.toNat).Nodup :=
    h.distinct.map fun _ _ => UInt8.toNat_inj.mp
  have hcard := Finset.card_le_card hsub
  rw [List.toFinset_card_of_nodup hnodup, List.length_map, Nat.card_Icc] at hcard
  simp only [pins, List.length_append, List.length_map, List.length_cons, List.length_nil] at hcard
  omega

/-- **The validator reports real faults and misses none of the clock, the sensors and the pins.** -/
theorem validator_reports_faults {Source : Type} (fromReader : Source → Except String Configuration)
    (source : Source) (config : Configuration) (hread : fromReader source = .ok config) :
    (∀ err, parse fromReader source = .error err → err.Names config) ∧
      ∀ config', parse fromReader source = .ok config' → config' = config ∧ config.Sound ∧
        config.drivers.length + config.adcCs.length ≤ 23 ∧
        ∀ i < config.drivers.length, (UInt8.ofNat i).toNat = i := by
  have hparse : parse fromReader source = (config.validate >>= fun _ => pure config) := by
    unfold parse
    rw [hread]
    rfl
  constructor
  · intro err h
    rw [hparse] at h
    rcases bind_error_iff.mp h with h | ⟨_, -, h⟩
    · exact validate_error h
    · cases h
  · intro config' h
    obtain ⟨hread', haccepted⟩ := accepted_of_parse h
    obtain rfl : config = config' := Except.ok.inj (hread.symm.trans hread')
    have hle := haccepted.isSound.pins_le
    refine ⟨rfl, haccepted.isSound, hle, fun i hi => ?_⟩
    exact UInt8.toNat_ofNat_of_lt' (show i < 256 by omega)

/-- A clock on the pin of a driver. -/
theorem clash_is_named :
    parse Except.ok { oneDriver [] [] with spiClk := 21 } = .error (.duplicatePin 21) ∧
      (ConfigError.duplicatePin 21).Names { oneDriver [] [] with spiClk := 21 } := by
  have hparse : parse Except.ok { oneDriver [] [] with spiClk := 21 } = .error (.duplicatePin 21) := by
    decide +kernel
  exact ⟨hparse, (validator_reports_faults Except.ok _ _ rfl).1 _ hparse⟩

end Configuration

end Slonk
