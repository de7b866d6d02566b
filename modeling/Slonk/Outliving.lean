/-
# The sensor monitor and its outputs

`sensor_listen` reads its sensors in turn, compares each rolling average with its range, and starts an
emergency stop when one is out.  Beside that it has five outputs: a dashboard, the message log, the
user log and the log of each sensor may all fail, and so may an ADC.  Its documentation says that "this
function will only return an error if the controller state status lock is poisoned".

`Monitor.see` says what a monitor shows to somebody who sees only its looks at the state, its readings
and the stops it starts: in every round a reading of every sensor in order, and a stop after just
those readings that move an average out of its range.  Failing outputs leave that alone, except for one:
a message log that fails makes `send` return an error, which goes through the `?` of `sensor_listen`
(`outlives_unless_message_log_fails`).
-/
import Slonk.Nesting

namespace Slonk

open Concurrency

/-! ## 1. What a monitor shows -/

/-- What a monitor shows. -/
inductive Shown
  | state (state : State)
  | reading (adc channel : UInt8) (result : Except Spi.Error UInt16)
  | stop
  deriving DecidableEq

/-- What a call shows of it. -/
def shown : Call Act.Ans → Option Shown
  | ⟨.status, some (.ok state)⟩ => some (.state state)
  | ⟨.readAdc adc channel, some result⟩ => some (.reading adc channel result)
  | ⟨.spawnStop, _⟩ => some .stop
  | _ => none

/-- Where a monitor of the group is, with its rolling averages. -/
inductive Monitor (F : Type) (group : SensorGroup)
  /-- about to look at the state -/
  | watching (averages : Vector F group.size)
  /-- in a round, with these sensors still to be read -/
  | sampling (rest : List (Fin group.size)) (averages : Vector F group.size)
  /-- the sensor just read is out of its range -/
  | alarmed (rest : List (Fin group.size)) (averages : Vector F group.size)
  /-- Quit has been seen -/
  | done

section Monitor

variable {F : Type} [F64 F] {group : SensorGroup}

/-- A reading of a sensor. -/
def Monitor.read (profile : Profile) (idx : Fin group.size) (rest : List (Fin group.size))
    (averages : Vector F group.size) : Except Spi.Error UInt16 → Option (Monitor F group)
  | .error _ => some (.sampling rest averages)
  | .ok reading =>
    (group.average profile averages idx reading).value.map fun averages =>
      if (group.sensor idx).outOfBounds (averages.get idx) then .alarmed rest averages
      else .sampling rest averages

/-- **A monitor**: where it is after something more is seen of it; `none` if it should not be. -/
def Monitor.see (profile : Profile) : Monitor F group → Shown → Option (Monitor F group)
  | .watching averages, .state state =>
    if state = .quit then some .done else some (.sampling (List.finRange group.size) averages)
  | .sampling (idx :: rest) averages, .reading adc channel result =>
    if adc = (group.sensor idx).adc ∧ channel = (group.sensor idx).channel then
      Monitor.read profile idx rest averages result
    else none
  | .alarmed rest averages, .stop => some (.sampling rest averages)
  | .sampling [] averages, .state _ => some (.watching averages)
  | _, _ => none

end Monitor

/-- The pauses between two rounds. -/
def naps : Call Act.Ans → Nat
  | ⟨.op (.sleep _), _⟩ => 1
  | _ => 0

/-- The message log has failed a `send`. -/
def messageLogFails : Call Act.Ans → Bool
  | ⟨.op (.send _), some (.error .logFile)⟩ => true
  | _ => false

section Outlives

variable (F : Type) [F64 F] (config : Configuration) (profile : Profile) (groupId : UInt8)
  (logFiles : List LogFile) (turns : Nat) (group : SensorGroup)

/-- **The monitor is alive**: after these calls `sensor_listen` has shown what a monitor shows, and
has neither panicked nor returned an error.  It has returned only if Quit was seen, or if it has been
through all its rounds. -/
def Outlives (h : List (Call Act.Ans)) : Prop :=
  ∃ p monitor, Prog.Steps (sensorListen F config profile groupId logFiles turns).run h p ∧
    (h.filterMap shown).foldlM (Monitor.see profile) (.watching group.seeds : Monitor F group)
      = some monitor ∧
    match p with
    | .op _ _ => True
    | .ret (.ok .quit) => monitor = .done
    | .ret (.ok .running) => (∃ averages, monitor = .watching averages) ∧ (h.map naps).sum = turns
    | .ret (.error _) => False
    | .panic => False

/-- The monitor gives up: it has returned an error, or is about to drop a guard. -/
def GivesUp (h : List (Call Act.Ans)) : Prop :=
  ∃ p, Prog.Steps (sensorListen F config profile groupId logFiles turns).run h p ∧
    match p with
    | .op a _ => ∃ l, a = .release l
    | .ret r => ∃ e, r = .error e
    | .panic => False

end Outlives

/-! ## 2. The programs -/

variable {F : Type} [F64 F] {config : Configuration} {profile : Profile} {group : SensorGroup}
  {groupId : UInt8} {logFiles : List LogFile} {α β : Type}

/-- Where the monitor is, how many rounds it has been through, and whether the message log has
failed. -/
structure Watch (F : Type) (group : SensorGroup) where
  monitor : Option (Monitor F group)
  rounds : Nat
  failed : Bool

/-- The operations that may panic while no lock is poisoned. -/
def Act.Panics : Act → Prop
  | unwind _ | op (.write _ _) => True
  | _ => False

/-- Nothing out of place is seen, and after a failed message log only guards are dropped. -/
def monitoring (F : Type) [F64 F] (group : SensorGroup) (profile : Profile) : Protocol Act Act.Ans (Watch F group) where
  permits γ a := γ.monitor.isSome = true ∧ ¬ a.Panics ∧ (γ.failed = true → ∃ l, a = .release l)
  aborts _ := False
  next γ c := ⟨match shown c with
      | none => γ.monitor
      | some o => γ.monitor.bind fun monitor => monitor.see profile o,
    γ.rounds + naps c, γ.failed || messageLogFails c⟩

/-- The program runs without a poisoned lock. -/
abbrev Monitored (profile : Profile) (monitor : Monitor F group) (n : Nat) (p : Prog Act Act.Ans α)
    (Q : α → Watch F group → Prop) : Prop :=
  p.Follows (monitoring F group profile) Unpoisoned ⟨some monitor, n, false⟩ Q

/-- How a part of the monitor ends: as `Q` says, or with an error after the message log has
failed. -/
def OrFailed (Q : α → Watch F group → Prop) (r : Except RunError α) (γ : Watch F group) : Prop :=
  match r with
  | .ok a => Q a γ ∧ γ.failed = false
  | .error _ => γ.monitor.isSome = true ∧ γ.failed = true

/-- The operations of which nothing is seen. -/
def Act.Unseen : Act → Prop
  | acquire _ _ | release _ | hasTarget | writeSensorLog _ _ => True
  | op .now | op (.userLog _ _) => True
  | _ => False

variable {monitor : Monitor F group} {n : Nat}

theorem monitored_bind {p : Routine RunError α} {f : α → Routine RunError β}
    {P : α → Watch F group → Prop} {Q : β → Watch F group → Prop}
    (hp : Monitored profile monitor n p.run (OrFailed P))
    (hf : ∀ a γ, P a γ → γ.failed = false →
      (f a).run.Follows (monitoring F group profile) Unpoisoned γ (OrFailed Q)) :
    Monitored profile monitor n (p >>= f).run (OrFailed Q) :=
  Fallible.follows_bind hp (fun a γ h => hf a γ h.1 h.2) fun _ _ h => h

theorem monitored_unseen {a : Act} (ha : a.Unseen) {k : a.Ans → Prog Act Act.Ans α}
    {Q : α → Watch F group → Prop}
    (hk : ∀ x, Unpoisoned a x → Monitored profile monitor n (k x) Q) :
    Monitored profile monitor n (.op a k) Q := by
  have hnext : ∀ x : a.Ans, (monitoring F group profile).next ⟨some monitor, n, false⟩ ⟨a, some x⟩
      = ⟨some monitor, n, false⟩ := by
    intro x
    cases a with
    | op o => cases o <;> first | rfl | exact ha.elim
    | _ => first | rfl | exact ha.elim
  refine ⟨⟨rfl, ?_, nofun⟩, fun x hx => ?_⟩
  · cases a with
    | op o => cases o <;> first | exact id | exact ha.elim
    | _ => first | exact id | exact ha.elim
  · rw [hnext x]
    exact hk x hx

/-- A guard over a part that leaves the monitor where `Q` says. -/
theorem monitored_guarded {l : Lock} {mode : Mode} {p : Bool → Prog Act Act.Ans α}
    {Q : α → Watch F group → Prop} (hp : Monitored profile monitor n (p false) Q)
    (hQ : ∀ a γ, Q a γ → γ.monitor.isSome = true) :
    Monitored profile monitor n (Prog.guarded (.acquire l mode) p (.release l)) Q := by
  refine Prog.Follows.guarded (P := Q) ⟨rfl, id, nofun⟩ (fun poisoned hpoisoned => ?_) fun r γ hr => ?_
  · obtain rfl : poisoned = false := hpoisoned
    exact hp
  refine ⟨⟨hQ r γ hr, id, fun _ => ⟨l, rfl⟩⟩, fun _ _ => ?_⟩
  have hnext : (monitoring F group profile).next γ ⟨.release l, some ()⟩ = γ := by
    simp [monitoring, shown, naps, messageLogFails]
  rw [hnext]
  exact hr

/-- The monitor is still there, and where it was. -/
abbrev Unmoved (Q : α → Prop) (monitor : Monitor F group) (n : Nat) (a : α) (γ : Watch F group) :
    Prop :=
  Q a ∧ γ = ⟨some monitor, n, false⟩

theorem monitored_writeLog (guards : List Lock) (level : LogLevel) (message : UserMessage) :
    Monitored profile monitor n (writeLog guards level message)
      (Unmoved (fun _ => True) monitor n) := by
  refine monitored_guarded ?_ ?_
  · exact monitored_unseen (a := .op (.userLog level message)) trivial fun _ _ => ⟨trivial, rfl⟩
  · rintro r _ ⟨-, rfl⟩
    rfl

/-- A warning, whether it is written or not. -/
theorem monitored_note (guards : List Lock) (level : LogLevel) (message : UserMessage) :
    Monitored profile monitor n (Routine.note guards level message).run
      (OrFailed (Unmoved (fun _ => True) monitor n)) := by
  refine Prog.Follows.bind ((monitored_writeLog guards level message).mono ?_)
  rintro r _ ⟨-, rfl⟩
  exact ⟨⟨trivial, rfl⟩, rfl⟩

theorem monitored_now : Monitored profile monitor n Routine.now.run
    (OrFailed (Unmoved (fun _ => True) monitor n)) :=
  monitored_unseen (a := .op .now) trivial fun _ _ => ⟨⟨trivial, rfl⟩, rfl⟩

omit [F64 F] in
/-- The end of a part that leaves the monitor there. -/
theorem orFailed_isSome {Q : α → Watch F group → Prop}
    (hQ : ∀ a γ, Q a γ → γ.monitor.isSome = true) :
    ∀ (r : Except RunError α) (γ : Watch F group), OrFailed Q r γ → γ.monitor.isSome = true
  | .ok a, γ, h => hQ a γ h.1
  | .error _, _, h => h.1

/-- **The state is looked at.** -/
theorem monitored_status (next : State → Monitor F group)
    (hnext : ∀ state, monitor.see profile (.state state) = some (next state)) :
    Monitored profile monitor n Routine.status.run
      (OrFailed fun state γ => γ = ⟨some (next state), n, false⟩) := by
  refine monitored_guarded (Q := OrFailed fun state γ => γ = ⟨some (next state), n, false⟩) ?_
    (orFailed_isSome ?_)
  · refine ⟨⟨rfl, id, nofun⟩, fun r hr => ?_⟩
    obtain ⟨state, rfl⟩ := hr
    refine ⟨?_, rfl⟩
    simp [monitoring, shown, naps, messageLogFails, hnext]
  · rintro state γ rfl
    rfl

/-! ## 3. A round -/

section Round

variable (hwidth : ∀ sensor ∈ group.sensors, sensor.rollingAverageWidth ≠ some 0)
  (hchannel : ∀ sensor ∈ group.sensors, sensor.channel < 8)

/-- What a sweep leaves: the sensors still to be read, and the averages the code has. -/
abbrev Swept (rest : List (Fin group.size)) (n : Nat) (locals : Locals F group.size)
    (γ : Watch F group) : Prop :=
  γ = ⟨some (.sampling rest locals.rollingAverages), n, false⟩

theorem monitored_checkRange (sensor : Sensor) (avg : F) (rest : List (Fin group.size))
    (averages : Vector F group.size) :
    Monitored profile (if sensor.outOfBounds avg then .alarmed rest averages
        else .sampling rest averages) n (checkRange sensor avg).run
      (OrFailed fun _ γ => γ = ⟨some (.sampling rest averages), n, false⟩) := by
  unfold checkRange
  split
  · refine monitored_bind (monitored_note _ _ _) ?_
    rintro _ _ ⟨-, rfl⟩ -
    exact ⟨⟨rfl, id, nofun⟩, fun _ _ => ⟨rfl, rfl⟩⟩
  · exact ⟨rfl, rfl⟩

include hwidth in
/-- A reading that succeeds moves one average. -/
theorem read_ok (profile : Profile) (idx : Fin group.size) (rest : List (Fin group.size))
    (averages : Vector F group.size) (reading : UInt16) :
    ∃ avg, ((group.sensor idx).rollingAvg profile (averages.get idx)
        ((group.sensor idx).calibrate reading)).value = some avg ∧
      Monitor.read profile idx rest averages (.ok reading)
        = some (if (group.sensor idx).outOfBounds avg then
          .alarmed rest (setAverage averages idx avg)
          else .sampling rest (setAverage averages idx avg)) := by
  obtain ⟨avg, havg, haverage⟩ := SensorGroup.average_of_ne (hwidth _ (List.get_mem _ idx)) profile
    averages reading
  refine ⟨avg, by rw [havg], ?_⟩
  simp [Monitor.read, haverage]

include hwidth hchannel in
theorem monitored_readAdc (idx : Fin group.size) (rest : List (Fin group.size))
    (averages : Vector F group.size) :
    Monitored profile (.sampling (idx :: rest) averages) n (readAdc (group.sensor idx)).run
      (OrFailed fun result γ => γ.monitor.isSome = true ∧
        γ = ⟨Monitor.read profile idx rest averages result, n, false⟩) := by
  have hlt : ¬ (group.sensor idx).channel ≥ 8 :=
    UInt8.not_le.mpr (hchannel _ (List.get_mem _ idx))
  unfold readAdc
  rw [if_neg hlt]
  refine monitored_guarded ?_ (orFailed_isSome fun _ _ h => h.1)
  refine ⟨⟨rfl, id, nofun⟩, fun result _ => ?_⟩
  have hnext : (monitoring F group profile).next ⟨some (.sampling (idx :: rest) averages), n, false⟩
      ⟨.readAdc (group.sensor idx).adc (group.sensor idx).channel, some result⟩
      = ⟨Monitor.read profile idx rest averages result, n, false⟩ := by
    simp [monitoring, shown, naps, messageLogFails, Monitor.see]
  rw [hnext]
  refine ⟨⟨?_, rfl⟩, rfl⟩
  cases result with
  | error e => rfl
  | ok reading =>
    obtain ⟨avg, -, hread⟩ := read_ok hwidth profile idx rest averages reading
    rw [hread]
    rfl

include hwidth hchannel in
/-- **A sensor is read and checked**, when its ADC is locked. -/
theorem monitored_sampleLocked (idx : Fin group.size) (rest : List (Fin group.size))
    (locals : Locals F group.size) :
    Monitored profile (.sampling (idx :: rest) locals.rollingAverages) n
      (sampleLocked profile group idx locals).run (OrFailed (Swept rest n)) := by
  refine monitored_bind (monitored_readAdc hwidth hchannel idx rest locals.rollingAverages) ?_
  rintro result _ ⟨-, rfl⟩ -
  cases result with
  | error e =>
    refine monitored_bind (monitored_note _ _ _) ?_
    rintro _ _ ⟨-, rfl⟩ -
    exact ⟨rfl, rfl⟩
  | ok reading =>
    obtain ⟨avg, havg, hread⟩ := read_ok hwidth profile idx rest locals.rollingAverages
      reading
    rw [hread]
    refine monitored_bind monitored_now ?_
    rintro readTime _ ⟨-, rfl⟩ -
    dsimp only [Locals.record]
    rw [havg]
    refine monitored_bind (monitored_checkRange _ avg rest _) ?_
    rintro _ _ rfl -
    exact ⟨rfl, rfl⟩

include hwidth hchannel in
theorem monitored_sample (idx : Fin group.size) (rest : List (Fin group.size))
    (locals : Locals F group.size) :
    Monitored profile (.sampling (idx :: rest) locals.rollingAverages) n
      (sample profile group locals idx).run (OrFailed (Swept rest n)) := by
  have hsampled : Monitored profile (.sampling (idx :: rest) locals.rollingAverages) n
      (do
        let locals ← sampleLocked profile group idx locals
        pure (some locals) : Routine RunError (Option (Locals F group.size))).run
      (OrFailed fun sampled γ => ∃ locals', sampled = some locals' ∧ Swept rest n locals' γ) := by
    refine monitored_bind (monitored_sampleLocked hwidth hchannel idx rest locals) ?_
    rintro locals' _ rfl -
    exact ⟨⟨locals', rfl, rfl⟩, rfl⟩
  refine monitored_bind (monitored_guarded hsampled (orFailed_isSome ?_)) ?_
  · rintro _ _ ⟨locals', -, rfl⟩
    rfl
  · rintro _ _ ⟨locals', rfl, rfl⟩ -
    exact ⟨rfl, rfl⟩

include hwidth hchannel in
/-- **A sweep** reads and checks every sensor it is given, by induction on them. -/
theorem monitored_sweep : ∀ (rest : List (Fin group.size)) (locals : Locals F group.size),
    Monitored profile (.sampling rest locals.rollingAverages) n
      (rest.foldlM (sample profile group) locals).run (OrFailed (Swept [] n))
  | [], locals => ⟨rfl, rfl⟩
  | idx :: rest, locals => by
    rw [List.foldlM_cons]
    refine monitored_bind (monitored_sample hwidth hchannel idx rest locals) ?_
    rintro locals' _ rfl -
    exact monitored_sweep rest locals'

/-! ## 4. The outputs -/

theorem monitored_hasTarget : Monitored profile monitor n Routine.hasTarget.run
    (OrFailed (Unmoved (fun _ => True) monitor n)) := by
  refine monitored_guarded (Q := OrFailed (Unmoved (fun _ => True) monitor n)) ?_
    (orFailed_isSome ?_)
  · refine monitored_unseen (a := .hasTarget) trivial fun r hr => ?_
    obtain ⟨b, rfl⟩ := hr
    exact ⟨⟨trivial, rfl⟩, rfl⟩
  · rintro _ _ ⟨-, rfl⟩
    rfl

/-- **A message is sent**, or the message log has failed. -/
theorem monitored_send (message : Message) : Monitored profile monitor n (Routine.send message).run
    (OrFailed (Unmoved (fun _ => True) monitor n)) := by
  have hsend : Monitored profile monitor n (critical (.send message)) fun r γ =>
      OrFailed (Unmoved (fun _ => True) monitor n) (r.mapError .outgoing) γ := by
    have hsome : ∀ (r : Except OutgoingError Unit) (γ : Watch F group),
        OrFailed (Unmoved (fun _ => True) monitor n) (r.mapError RunError.outgoing) γ →
        γ.monitor.isSome = true := fun r => orFailed_isSome (by
      rintro _ _ ⟨-, rfl⟩
      rfl) _
    refine monitored_guarded (monitored_guarded ?_ hsome) hsome
    refine ⟨⟨rfl, id, nofun⟩, fun r hr => ?_⟩
    match r, hr with
    | .ok (), _ => exact ⟨⟨trivial, by simp [monitoring, shown, naps, messageLogFails]⟩, rfl⟩
    | .error .logFile, _ => exact ⟨rfl, rfl⟩
    | .error .poison, hr => exact absurd rfl hr
  exact Prog.Follows.bind (hsend.mono fun _ _ h => h)

/-- What the outputs leave: the round is over. -/
theorem monitored_transmit (period : Duration) (locals : Locals F group.size) :
    Monitored profile (.sampling [] locals.rollingAverages) n
      (transmit group groupId period locals).run (OrFailed (Swept [] n)) := by
  have hdone : Monitored profile (.sampling [] locals.rollingAverages) n (do
      let time ← Routine.now
      pure { locals with
        lastTransmissionTime := time, transmissionReadings := Vector.replicate _ none } :
      Routine RunError (Locals F group.size)).run (OrFailed (Swept [] n)) := by
    refine monitored_bind monitored_now ?_
    rintro time _ ⟨-, rfl⟩ -
    exact ⟨rfl, rfl⟩
  refine monitored_bind monitored_now ?_
  rintro time _ ⟨-, rfl⟩ -
  dsimp only
  split
  · refine monitored_bind monitored_hasTarget ?_
    rintro target _ ⟨-, rfl⟩ -
    cases target with
    | false => exact hdone
    | true =>
      refine monitored_bind (monitored_send _) ?_
      rintro _ _ ⟨-, rfl⟩ -
      exact hdone
  · exact ⟨rfl, rfl⟩

theorem monitored_flush (hfiles : logFiles.length = group.size) (locals : Locals F group.size)
    (idx : Fin group.size) :
    Monitored profile (.sampling [] locals.rollingAverages) n
      (flush config group logFiles locals idx).run (OrFailed (Swept [] n)) := by
  unfold flush
  dsimp only
  split
  · split
    · rename_i hnone
      have := List.getElem?_eq_none_iff.mp hnone
      omega
    · refine monitored_bind (P := Unmoved (fun _ => True) _ n)
        (monitored_unseen (a := .writeSensorLog _ _) trivial fun _ _ => ⟨⟨trivial, rfl⟩, rfl⟩) ?_
      rintro r _ ⟨-, rfl⟩ -
      cases r with
      | ok u => exact ⟨rfl, rfl⟩
      | error u =>
        refine monitored_bind (monitored_note _ _ _) ?_
        rintro _ _ ⟨-, rfl⟩ -
        exact ⟨rfl, rfl⟩
  · exact ⟨rfl, rfl⟩

theorem monitored_flushes (hfiles : logFiles.length = group.size) :
    ∀ (indices : List (Fin group.size)) (locals : Locals F group.size),
      Monitored profile (.sampling [] locals.rollingAverages) n
        (indices.foldlM (flush config group logFiles) locals).run (OrFailed (Swept [] n))
  | [], locals => ⟨rfl, rfl⟩
  | idx :: indices, locals => by
    rw [List.foldlM_cons]
    refine monitored_bind (monitored_flush hfiles locals idx) ?_
    rintro locals' _ rfl -
    exact monitored_flushes hfiles indices locals'

/-! ## 5. The loop -/

/-- How a loop over rounds ends that starts after so many: Quit was seen, or there are no more. -/
def Ended (rounds : Nat) (r : Locals F group.size ⊕ Unit) (γ : Watch F group) : Prop :=
  match r with
  | .inl locals => γ = ⟨some (.watching locals.rollingAverages), rounds, false⟩
  | .inr () => γ.monitor = some .done

include hwidth hchannel in
/-- **One turn**: Quit is seen, or there is a round. -/
theorem monitored_sensorTurn (hfiles : logFiles.length = group.size) (periods : Periods)
    (locals : Locals F group.size) :
    Monitored profile (.watching locals.rollingAverages) n
      (sensorTurn config profile group groupId logFiles periods locals).run
      (OrFailed (Ended (n + 1))) := by
  refine monitored_bind (monitored_status (fun state => if state = .quit then .done
    else .sampling (List.finRange group.size) locals.rollingAverages) ?_) ?_
  · intro state
    by_cases hquit : state = .quit
    · simp [Monitor.see, hquit]
    · simp [Monitor.see, hquit]
  rintro state _ rfl -
  dsimp only
  split
  · exact ⟨rfl, rfl⟩
  refine monitored_bind (monitored_sweep hwidth hchannel _ locals) ?_
  rintro locals₁ _ rfl -
  refine monitored_bind (monitored_transmit _ locals₁) ?_
  rintro locals₂ _ rfl -
  refine monitored_bind (monitored_flushes hfiles _ locals₂) ?_
  rintro locals₃ _ rfl -
  refine monitored_bind (monitored_status (fun _ => .watching locals₃.rollingAverages)
    fun _ => rfl) ?_
  rintro state _ rfl -
  -- the pause is what ends the round
  exact ⟨⟨rfl, id, nofun⟩, fun _ _ => ⟨rfl, rfl⟩⟩

include hwidth hchannel in
theorem monitored_loop (hfiles : logFiles.length = group.size) (periods : Periods) :
    ∀ (turns n : Nat) (locals : Locals F group.size),
      Monitored profile (.watching locals.rollingAverages) n
        (Fallible.loop (sensorTurn config profile group groupId logFiles periods) turns locals).run
        (OrFailed (Ended (n + turns)))
  | 0, n, locals => ⟨rfl, rfl⟩
  | turns + 1, n, locals => by
    refine monitored_bind
      (monitored_sensorTurn hwidth hchannel hfiles periods locals) ?_
    rintro (locals' | u) γ hγ hfailed
    · obtain rfl : γ = ⟨some (.watching locals'.rollingAverages), n + 1, false⟩ := hγ
      have hadd : n + (turns + 1) = n + 1 + turns := by omega
      rw [hadd]
      exact monitored_loop hfiles periods turns (n + 1) locals'
    · exact ⟨hγ, hfailed⟩

/-- How `sensor_listen` ends. -/
def Listened (turns : Nat) (exit : Exit) (γ : Watch F group) : Prop :=
  match exit with
  | .running => (∃ averages, γ.monitor = some (.watching averages)) ∧ γ.rounds = turns
  | .quit => γ.monitor = some .done

include hwidth hchannel in
/-- **`sensor_listen`** is a monitor until Quit is seen, or the message log fails. -/
theorem monitored_sensorListen (hgroup : config.sensorGroups[groupId.toNat]? = some group)
    (hmonitorable : group.Monitorable) (hfiles : logFiles.length = group.size) (turns : Nat) :
    Monitored profile (.watching (group.seeds : Vector F group.size)) 0
      (sensorListen F config profile groupId logFiles turns).run (OrFailed (Listened turns)) := by
  unfold sensorListen
  rw [hgroup]
  refine monitored_bind monitored_now ?_
  rintro time _ ⟨-, rfl⟩ -
  rw [hmonitorable.periods]
  refine monitored_bind (monitored_loop hwidth hchannel hfiles _ turns 0
    (Locals.start group time)) ?_
  rintro (locals | u) γ hγ hfailed
  · obtain rfl : γ = ⟨some (.watching locals.rollingAverages), 0 + turns, false⟩ := hγ
    exact ⟨⟨⟨_, rfl⟩, Nat.zero_add turns⟩, rfl⟩
  · exact ⟨hγ, hfailed⟩

end Round

/-- What the protocol has seen is what is seen of the calls. -/
theorem after_monitoring (h : List (Call Act.Ans)) (γ : Watch F group) :
    (monitoring F group profile).after γ h
      = ⟨γ.monitor.bind fun monitor => (h.filterMap shown).foldlM (Monitor.see profile) monitor,
        γ.rounds + (h.map naps).sum, γ.failed || h.any messageLogFails⟩ := by
  induction h generalizing γ with
  | nil => simp
  | cons c h ih =>
    rw [Protocol.after_cons, ih]
    cases hc : shown c with
    | none => simp [monitoring, hc, Bool.or_assoc, Nat.add_assoc]
    | some o => simp [monitoring, hc, Bool.or_assoc, Nat.add_assoc, Option.bind_assoc]

/-! ## 6. The condition -/

section Runs

variable {fromSlice : List UInt8 → Option Command} {threads : List Thread} {c : Controller}
  {i turns : Nat} {t : List (Event Act.Ans)} {s : Sys Act Act.Ans Controller}

/-- What a run needs to know about the group and its thread. -/
structure Listens (config : Configuration) (group : SensorGroup) (groupId : UInt8)
    (logFiles : List LogFile) : Prop where
  accepted : config.Accepted
  monitorable : config.Monitorable
  present : config.sensorGroups[groupId.toNat]? = some group
  files : logFiles.length = group.size

/-- **What is left of the monitor's thread** follows the protocol. -/
theorem sensorListen_follows
    {G : List (Event Act.Ans) → Sys Act Act.Ans Controller → Event Act.Ans → Prop}
    (hG : ∀ t s e, G t s e → s.shared.Sound)
    (hi : threads[i]? = some (.sensorListen groupId logFiles turns))
    (hlistens : Listens config group groupId logFiles)
    (hrun : ControllerRun F config profile fromSlice G threads c t s) :
    ∃ p, s.threads[i]? = some p.discard ∧
      Prog.Steps (sensorListen F config profile groupId logFiles turns).run (history i t) p ∧
      p.Follows (monitoring F group profile) Unpoisoned
        ⟨((history i t).filterMap shown).foldlM (Monitor.see profile) (.watching group.seeds),
          ((history i t).map naps).sum, (history i t).any messageLogFails⟩
        (OrFailed (Listened turns)) := by
  obtain ⟨p, hq, hsteps⟩ := hrun.routine hi rfl
  have hmem : group ∈ config.sensorGroups := List.mem_of_getElem? hlistens.present
  have hmonitorable := hlistens.monitorable.groups group hmem
  have hfollows : Monitored profile (.watching (group.seeds : Vector F group.size)) 0
      (sensorListen F config profile groupId logFiles turns).run (OrFailed (Listened turns)) :=
    monitored_sensorListen hmonitorable.width
    (fun sensor hsensor => (hlistens.accepted.sensor_valid hmem hsensor).2) hlistens.present
    hmonitorable hlistens.files turns
  have hsound := hrun.sound hG
  have hA : ∀ call ∈ history i t, ∀ x, call.ans = some x → Unpoisoned call.op x := by
    intro call hcall
    obtain ⟨e, he, -, rfl⟩ := mem_history.mp hcall
    exact (hsound e he).1
  refine ⟨p, hq, hsteps, ?_⟩
  rcases hfollows.steps hsteps hA with ⟨-, call, hcall, hnone⟩ | hp
  · -- no call of this thread has panicked
    obtain ⟨γ, -, hpanics, -⟩ := hfollows.permits_of_mem hsteps hA hcall
    obtain ⟨e, he, -, rfl⟩ := mem_history.mp hcall
    rcases (hsound e he).2 hnone with ⟨guards, ha⟩ | ⟨driverId, value, ha⟩
    · rw [ha] at hpanics
      exact absurd trivial hpanics
    · rw [ha] at hpanics
      exact absurd trivial hpanics
  · rw [after_monitoring] at hp
    simpa using hp

/-- **The monitor outlives its outputs**, as long as the message log does not fail. -/
theorem outlives_of_not_messageLogFails
    (hi : threads[i]? = some (.sensorListen groupId logFiles turns))
    (hlistens : Listens config group groupId logFiles)
    (hrun : ControllerRun F config profile fromSlice
      (fun _ s e => s.shared.Sound ∧ (e.tid = i → messageLogFails e.call = false)) threads c t s) :
    Outlives F config profile groupId logFiles turns group (history i t) := by
  obtain ⟨p, -, hsteps, hp⟩ := sensorListen_follows (fun _ _ _ hg => hg.1) hi hlistens hrun
  have hany : (history i t).any messageLogFails = false := by
    rw [List.any_eq_false]
    intro call hcall
    obtain ⟨e, he, htid, rfl⟩ := mem_history.mp hcall
    simpa using hrun.forall_mem (P := fun e => e.tid = i → messageLogFails e.call = false)
      (fun _ _ _ _ hg _ => hg.2.2) e he htid
  rw [hany] at hp
  have hsome : ∀ {o : Option (Monitor F group)}, o.isSome = true → ∃ monitor, o = some monitor :=
    Option.isSome_iff_exists.mp
  match p with
  | .op a k =>
    obtain ⟨monitor, hmonitor⟩ := hsome hp.1.1
    exact ⟨_, monitor, hsteps, hmonitor, trivial⟩
  | .panic => exact hp.elim
  | .ret (.error e) => cases hp.2
  | .ret (.ok .quit) => exact ⟨_, .done, hsteps, hp.1, rfl⟩
  | .ret (.ok .running) =>
    obtain ⟨⟨⟨averages, hmonitor⟩, hrounds⟩, -⟩ := hp
    exact ⟨_, _, hsteps, hmonitor, ⟨averages, rfl⟩, hrounds⟩

/-- **A message log that fails ends the monitor.** -/
theorem givesUp_of_messageLogFails
    (hi : threads[i]? = some (.sensorListen groupId logFiles turns))
    (hlistens : Listens config group groupId logFiles)
    (hrun : ControllerRun F config profile fromSlice (fun _ s _ => s.shared.Sound) threads c t s)
    {call : Call Act.Ans} (hcall : call ∈ history i t) (hfails : messageLogFails call = true) :
    GivesUp F config profile groupId logFiles turns (history i t) := by
  obtain ⟨p, -, hsteps, hp⟩ := sensorListen_follows (fun _ _ _ hg => hg) hi hlistens hrun
  rw [List.any_eq_true.mpr ⟨call, hcall, hfails⟩] at hp
  refine ⟨p, hsteps, ?_⟩
  match p with
  | .op a k => exact hp.1.2.2 rfl
  | .panic => exact hp
  | .ret (.error e) => exact ⟨e, rfl⟩
  | .ret (.ok exit) => cases hp.2

/-- **The sensor monitor outlives its outputs unless the message log fails**: in every run, with any
other threads, that meets no poisoned lock and in which no `send` of the monitor is answered with a
failure of the message log.  Once one is, the monitor drops its guards and returns the error. -/
theorem outlives_unless_message_log_fails (F : Type) [F64 F] (config : Configuration)
    (profile : Profile) (fromSlice : List UInt8 → Option Command) (threads : List Thread)
    (c : Controller) (i : Nat) (groupId : UInt8) (logFiles : List LogFile) (turns : Nat)
    (group : SensorGroup) (hi : threads[i]? = some (.sensorListen groupId logFiles turns))
    (haccepted : config.Accepted) (hmonitorable : config.Monitorable)
    (hgroup : config.sensorGroups[groupId.toNat]? = some group)
    (hfiles : logFiles.length = group.size) :
    (∀ t s, ControllerRun F config profile fromSlice (fun _ s e => s.shared.Sound ∧
        (e.tid = i → messageLogFails e.call = false)) threads c t s →
      Outlives F config profile groupId logFiles turns group (history i t)) ∧
    ∀ t s, ControllerRun F config profile fromSlice (fun _ s _ => s.shared.Sound) threads c t s →
      ∀ call ∈ history i t, messageLogFails call = true →
        GivesUp F config profile groupId logFiles turns (history i t) :=
  ⟨fun _ _ hrun =>
    outlives_of_not_messageLogFails hi ⟨haccepted, hmonitorable, hgroup, hfiles⟩ hrun,
    fun _ _ hrun _ hcall hfails =>
      givesUp_of_messageLogFails hi ⟨haccepted, hmonitorable, hgroup, hfiles⟩ hrun hcall hfails⟩

/-- Once the message log has failed and the thread has nothing left to do, the monitor is not
alive. -/
theorem not_outlives_of_finished
    (hi : threads[i]? = some (.sensorListen groupId logFiles turns))
    (hlistens : Listens config group groupId logFiles)
    (hrun : ControllerRun F config profile fromSlice (fun _ s _ => s.shared.Sound) threads c t s)
    (hfails : (history i t).any messageLogFails = true)
    (hpending : s.threads[i]?.bind Prog.pending = none) :
    ¬ Outlives F config profile groupId logFiles turns group (history i t) := by
  obtain ⟨p, hthread, hsteps, hp⟩ := sensorListen_follows (fun _ _ _ hg => hg) hi hlistens hrun
  rw [hfails] at hp
  rintro ⟨p', monitor, hsteps', -, halive⟩
  obtain rfl := hsteps.unique hsteps'
  match p' with
  | .op a k =>
    rw [hthread] at hpending
    cases hpending
  | .panic => exact halive
  | .ret (.error e) => exact halive
  | .ret (.ok exit) => cases hp.2

end Runs

theorem oneSensor_accepted : (Configuration.oneSensor 10 (some 1)).Accepted := by
  unfold Configuration.Accepted
  decide +kernel

theorem oneSensor_monitorable : (Configuration.oneSensor 10 (some 1)).Monitorable := by
  constructor
  · decide
  · intro group hgroup
    obtain rfl := List.mem_singleton.mp hgroup
    constructor
    · decide
    · decide
    · decide
    · intro sensor hsensor
      obtain rfl := List.mem_singleton.mp hsensor
      decide

/-- A sensor out of its range, and a moment at which a transmission is due. -/
def World.alarming : World := { World.fine with now := oneSecond, adcResult := .ok 200 }

/-- A monitor that goes on: the reading is out of range and a stop started, although the user log and
the dashboard fail, and the ADC fails in the next round. -/
theorem monitor_goes_on : ∃ t s,
    ControllerRun ℚ (.oneSensor 10 (some 1)) .release (fun _ => none)
      (fun _ s e => s.shared.Sound ∧ (e.tid = 1 → messageLogFails e.call = false))
      [.accepting 1, .sensorListen 0 [⟨0, 0⟩] 3] (.new [false]) t s ∧
    (history 1 t).filterMap shown = [.state .standby, .reading 0 0 (.ok 200), .stop,
      .state .standby, .state .standby, .reading 0 0 (.error .gpio), .state .standby] ∧
    Outlives ℚ (.oneSensor 10 (some 1)) .release 0 [⟨0, 0⟩] 3
      ⟨"FAST", 10, 10, 10, [⟨"LC_MAIN", "#FF0000", "lb", some (0, 100), 0, 1, some 1, 0, 0⟩]⟩
      (history 1 t) := by
  obtain ⟨t, s, hrun, hp⟩ := exists_guardedRun (M := controller (.oneSensor 10 (some 1)))
    (G := fun t s e => Locks.Grants t s e ∧ s.shared.Sound ∧
      (e.tid = 1 → messageLogFails e.call = false))
    (C := fun t s e => Locks.grants t s e && s.shared.sound && !messageLogFails e.call)
    (fun t s e h => by
      simp only [Bool.and_eq_true, Bool.not_eq_true'] at h
      exact ⟨Locking.grants_of_grants h.1.1, Controller.sound_of_sound h.1.2, fun _ => h.2⟩)
    (List.replicate 9 (0, World.fine) ++ (1, World.fine) ::
      List.replicate 27 (1, { World.alarming with userLogFails := true, chanFails := true }) ++
      List.replicate 16 (1, { World.fine with adcResult := .error .gpio }))
    (s := controllerOf ℚ (.oneSensor 10 (some 1)) .release (fun _ => none)
      [.accepting 1, .sensorListen 0 [⟨0, 0⟩] 3] (.new [false]))
    (P := fun t s => decide ((history 1 t).filterMap shown = [.state .standby,
      .reading 0 0 (.ok 200), .stop, .state .standby, .state .standby,
      .reading 0 0 (.error .gpio), .state .standby]))
    (by decide +kernel)
  refine ⟨t, s, hrun, of_decide_eq_true hp, ?_⟩
  exact (outlives_unless_message_log_fails ℚ (.oneSensor 10 (some 1)) .release (fun _ => none)
    [.accepting 1, .sensorListen 0 [⟨0, 0⟩] 3] (.new [false]) 1 0 [⟨0, 0⟩] 3 _ rfl
    oneSensor_accepted oneSensor_monitorable rfl rfl).1 t s hrun

/-- **A message log that fails ends the monitor**: the configuration is accepted, its frequencies and
widths are not zero, no lock is poisoned, Quit was not reached, and `sensor_listen` has returned. -/
theorem monitor_ended_by_message_log : ∃ t s,
    ControllerRun ℚ (.oneSensor 10 (some 1)) .release (fun _ => none) (fun _ s _ => s.shared.Sound)
      [.accepting 1, .sensorListen 0 [⟨0, 0⟩] 3] (.new [false]) t s ∧
    (Configuration.oneSensor 10 (some 1)).Accepted ∧
    (Configuration.oneSensor 10 (some 1)).Monitorable ∧
    s.shared.Sound ∧ s.shared.shared.state.state = .standby ∧
    ¬ Outlives ℚ (.oneSensor 10 (some 1)) .release 0 [⟨0, 0⟩] 3
      ⟨"FAST", 10, 10, 10, [⟨"LC_MAIN", "#FF0000", "lb", some (0, 100), 0, 1, some 1, 0, 0⟩]⟩
      (history 1 t) := by
  obtain ⟨t, s, hrun, hp⟩ := exists_guardedRun (M := controller (.oneSensor 10 (some 1)))
    (G := fun t s e => Locks.Grants t s e ∧ s.shared.Sound)
    (C := fun t s e => Locks.grants t s e && s.shared.sound)
    (fun t s e h => by
      simp only [Bool.and_eq_true] at h
      exact ⟨Locking.grants_of_grants h.1, Controller.sound_of_sound h.2⟩)
    (List.replicate 9 (0, World.fine) ++ (1, World.fine) ::
      List.replicate 22 (1, { World.alarming with messageLogFails := true }))
    (s := controllerOf ℚ (.oneSensor 10 (some 1)) .release (fun _ => none)
      [.accepting 1, .sensorListen 0 [⟨0, 0⟩] 3] (.new [false]))
    (P := fun t s => s.shared.sound && decide (s.shared.shared.state.state = .standby) &&
      (history 1 t).any messageLogFails && decide (s.threads[1]?.bind Prog.pending = none))
    (by decide +kernel)
  simp only [Bool.and_eq_true, decide_eq_true_eq] at hp
  obtain ⟨⟨⟨hsound, hstate⟩, hfails⟩, hpending⟩ := hp
  refine ⟨t, s, hrun, oneSensor_accepted, oneSensor_monitorable, Controller.sound_of_sound hsound,
    hstate, ?_⟩
  exact not_outlives_of_finished (i := 1) rfl
    ⟨oneSensor_accepted, oneSensor_monitorable, rfl, rfl⟩ hrun hfails hpending

end Slonk
