/-
# What a panic can poison

A thread that panics with a guard in its hand poisons the lock.  The threads of the controller hold
guards of eight kinds of locks, and on a host that provides what they need (`Host.lean`) they panic in
three ways: `sensor_listen` on an ADC that is not there, with no guard; `sensor_listen` on a channel or a
rolling average that its arithmetic does not support, with the guard of one ADC; and a write past the
last driver line, with the guard of the lines.  The fourth way, "we trust writing to the log buffer will
not cause a panic", takes a poisoned user log, and nobody poisons that one.

The last sentence is circular: each thread panics in its ways only as long as the user log is sound,
and the user log is sound because the threads panic in no other way.  `Run.within` closes the circle:

* `Act.Confined` are the operations, with what is known of a panic; `LogSound` are the answers of a
  controller whose user log is sound;
* every thread stays confined when it is answered so (`Thread.program_within`);
* and confined operations keep six of the locks sound (`Controller.Unharmed`).

So in every run of the server on such a host the only locks ever found poisoned are those of the ADCs
and of the driver lines, each exactly from such a panic on (`poison_confined`).
-/
import Slonk.Host
import Slonk.Protected
import Slonk.Concurrency.Within

namespace Slonk

open Concurrency

variable {ε α β : Type}

/-! ## 1. Confined operations -/

/-- A sensor whose channel an ADC does not have, or whose average has no width. -/
def Sensor.Faulty (sensor : Sensor) : Prop :=
  8 ≤ sensor.channel ∨ sensor.rollingAverageWidth = some 0

/-- A panic with the guard of the ADC of such a sensor. -/
def PanicsUnder (config : Configuration) (guards : List Lock) : Prop :=
  ∃ group ∈ config.sensorGroups, ∃ sensor ∈ group.sensors,
    sensor.Faulty ∧ guards = [.adc sensor.adc]

/-- Not a panic under any other guard, and not an ADC that no sensor is of. -/
def Act.Confined (config : Configuration) : Act → Prop
  | unwind guards => PanicsUnder config guards
  | acquire (.adc i) _ => ∃ group ∈ config.sensorGroups, ∃ sensor ∈ group.sensors, i = sensor.adc
  | _ => True

/-- The answers of a controller whose user log is not poisoned. -/
def LogSound : (a : Act) → a.Ans → Prop
  | .acquire .userLog _, poisoned => poisoned = false
  | _, _ => True

/-- Answered so, the program stays confined. -/
abbrev StaysConfined (config : Configuration) (p : Prog Act Act.Ans α) : Prop :=
  p.Within (Act.Confined config) LogSound

section Programs

variable (config : Configuration)

/-! ## 2. Commands -/

theorem within_perform (o : Op) : StaysConfined config (perform o) := ⟨trivial, fun _ _ => trivial⟩

/-- **The user log is sound**, so writing to it causes no panic. -/
theorem within_writeLog (guards : List Lock) (level : LogLevel) (message : UserMessage) :
    StaysConfined config (writeLog guards level message) := by
  refine .guarded trivial (fun poisoned h => ?_) trivial
  obtain rfl : poisoned = false := h
  exact within_perform config _

theorem within_critical (o : Op) : StaysConfined config (critical o) := by
  cases o with
  | moveTo newState => exact .guarded trivial (fun _ _ => within_perform config _) trivial
  | write driverId value => exact .guarded trivial (fun _ _ => within_perform config _) trivial
  | sleep duration => exact within_perform config _
  | now => exact within_perform config _
  | spawn cmd => exact within_perform config _
  | send message =>
    refine .guarded trivial (fun poisoned _ => ?_) trivial
    cases poisoned with
    | true => trivial
    | false => exact .guarded trivial (fun _ _ => within_perform config _) trivial
  | logCommand time tag cmd =>
    refine ⟨trivial, fun _ _ => (within_perform config _).bind fun r => ?_⟩
    match r with
    | .ok () => exact ⟨trivial, fun _ _ => trivial⟩
    | .error .poisoned => exact ⟨trivial, fun _ _ => trivial⟩
    | .error .io => trivial
  | userLog level message =>
    simp only [critical]
    split
    · exact (within_writeLog config _ _ _).bind fun _ => ⟨trivial, fun _ _ => trivial⟩
    · exact within_writeLog config _ _ _

/-- A program of `Execution.lean` or `Server.lean`. -/
theorem within_expand (p : Prog Op Op.Ans α) : StaysConfined config (p.expand critical) :=
  .expand (within_critical config) p

/-! ## 3. What the listeners call -/

theorem within_note (guards : List Lock) (level : LogLevel) (message : UserMessage) :
    StaysConfined config (Routine.note guards level message).run :=
  (within_writeLog config guards level message).bind fun _ => trivial

theorem within_log (guards : List Lock) (level : LogLevel) (message : UserMessage) :
    StaysConfined config (Routine.log guards level message).run :=
  (within_writeLog config guards level message).bind fun _ => trivial

theorem within_send (message : Message) : StaysConfined config (Routine.send message).run :=
  (within_critical config (.send message)).bind fun _ => trivial

theorem within_now : StaysConfined config Routine.now.run := ⟨trivial, fun _ _ => trivial⟩

theorem within_sleep (duration : Duration) : StaysConfined config (Routine.sleep duration).run :=
  ⟨trivial, fun _ _ => trivial⟩

theorem within_status : StaysConfined config Routine.status.run :=
  .guarded trivial (fun _ _ => ⟨trivial, fun _ _ => trivial⟩) trivial

/-! ## 4. The threads -/

section SensorListen

variable {F : Type} [F64 F] (profile : Profile) (group : SensorGroup)

/-- **A reading.**  It panics on a channel the ADC does not have. -/
theorem within_readAdc {sensor : Sensor} (hgroup : group ∈ config.sensorGroups)
    (hsensor : sensor ∈ group.sensors) : StaysConfined config (readAdc sensor).run := by
  unfold readAdc
  split
  · rename_i hchannel
    exact ⟨⟨group, hgroup, sensor, hsensor, Or.inl hchannel, rfl⟩, fun x => nomatch x⟩
  · refine .guarded trivial (fun poisoned _ => ?_) trivial
    cases poisoned with
    | true => trivial
    | false => exact ⟨trivial, fun _ _ => trivial⟩

/-- **What follows it.**  It panics where the average has no value. -/
theorem within_sampleLocked (hgroup : group ∈ config.sensorGroups) (idx : Fin group.size)
    (locals : Locals F group.size) :
    StaysConfined config (sampleLocked profile group idx locals).run := by
  have hsensor : group.sensor idx ∈ group.sensors := List.get_mem _ idx
  refine Fallible.within_bind (within_readAdc config group hgroup hsensor) ?_
  rintro (e | reading)
  · exact Fallible.within_bind (within_note config _ _ _) fun _ => trivial
  · refine Fallible.within_bind (within_now config) fun readTime => ?_
    dsimp only
    split
    · rename_i hvalue
      refine ⟨⟨group, hgroup, _, hsensor, Or.inr ?_, rfl⟩, fun x => nomatch x⟩
      by_contra hwidth
      rw [Sensor.rollingAvg_of_ne hwidth] at hvalue
      cases hvalue
    · refine Fallible.within_bind ?_ fun _ => trivial
      unfold checkRange
      split
      · exact Fallible.within_bind (within_note config _ _ _) fun _ => ⟨trivial, fun _ _ => trivial⟩
      · trivial

theorem within_sample (hgroup : group ∈ config.sensorGroups) (locals : Locals F group.size)
    (idx : Fin group.size) : StaysConfined config (sample profile group locals idx).run := by
  have hadc : (Act.acquire (.adc (group.sensor idx).adc) .exclusive).Confined config :=
    ⟨group, hgroup, group.sensor idx, List.get_mem _ idx, rfl⟩
  refine Fallible.within_bind (Prog.Within.guarded hadc (fun poisoned _ => ?_) trivial) ?_
  · cases poisoned with
    | true => trivial
    | false =>
      exact Fallible.within_bind (within_sampleLocked config profile group hgroup idx locals)
        fun _ => trivial
  · rintro (_ | locals)
    · exact Fallible.within_bind (within_note config _ _ _) fun _ => trivial
    · trivial

omit [F64 F] in
theorem within_transmit (groupId : UInt8) (period : Duration) (locals : Locals F group.size) :
    StaysConfined config (transmit group groupId period locals).run := by
  have hdone : StaysConfined config (do
      let time ← Routine.now
      pure { locals with
        lastTransmissionTime := time, transmissionReadings := Vector.replicate _ none } :
      Routine RunError (Locals F group.size)).run :=
    Fallible.within_bind (within_now config) fun _ => trivial
  refine Fallible.within_bind (within_now config) fun time => ?_
  dsimp only
  split
  · refine Fallible.within_bind
      (Prog.Within.guarded trivial (fun _ _ => ⟨trivial, fun _ _ => trivial⟩) trivial) ?_
    rintro (_ | _)
    · exact hdone
    · exact Fallible.within_bind (within_send config _) fun _ => hdone
  · trivial

theorem within_flush (logFiles : List LogFile) (locals : Locals F group.size)
    (idx : Fin group.size) : StaysConfined config (flush config group logFiles locals idx).run := by
  unfold flush
  dsimp only
  split
  · split
    · trivial
    · refine Fallible.within_bind (p := Fallible.call _) ⟨trivial, fun _ _ => trivial⟩ ?_
      rintro (_ | _)
      · exact Fallible.within_bind (within_note config _ _ _) fun _ => trivial
      · trivial
  · trivial

theorem within_sensorListen (groupId : UInt8) (logFiles : List LogFile) (turns : Nat) :
    StaysConfined config (sensorListen F config profile groupId logFiles turns).run := by
  unfold sensorListen
  split
  · trivial
  · rename_i group hgroup
    have hmem : group ∈ config.sensorGroups := List.mem_of_getElem? hgroup
    refine Fallible.within_bind (within_now config) fun time => ?_
    split
    · trivial
    · refine Fallible.within_bind (Fallible.within_loop (fun locals => ?_) _ _) fun _ => trivial
      refine Fallible.within_bind (within_status config) fun state => ?_
      dsimp only
      split
      · trivial
      refine Fallible.within_bind (Fallible.within_foldlM
        (within_sample config profile group hmem) _ _) fun locals => ?_
      refine Fallible.within_bind (within_transmit config group groupId _ _) fun locals => ?_
      refine Fallible.within_bind (Fallible.within_foldlM
        (within_flush config group logFiles) _ _) fun locals => ?_
      refine Fallible.within_bind (within_status config) fun state => ?_
      exact Fallible.within_bind (within_sleep config _) fun _ => trivial

end SensorListen

theorem within_statusLocked (readTime : Nat) (driverStates : List Bool) :
    StaysConfined config (statusLocked readTime driverStates).run := by
  refine Fallible.within_bind (Fallible.within_foldlM (fun driverStates driverIdx => ?_) _ _)
    fun driverStates => ?_
  · refine Fallible.within_bind (p := Fallible.call _) ⟨trivial, fun _ _ => trivial⟩ ?_
    rintro (_ | _)
    · exact Fallible.within_bind (within_log config _ _ _) fun _ => trivial
    · trivial
  · refine Fallible.within_bind (p := Fallible.attempt _ _) ⟨trivial, fun _ _ => trivial⟩ fun _ => ?_
    exact Fallible.within_bind (within_send config _) fun _ => trivial

theorem within_driverStatusListen (turns : Nat) :
    StaysConfined config (driverStatusListen config turns).run := by
  unfold driverStatusListen
  split
  · trivial
  · refine Fallible.within_bind (Prog.Within.guarded trivial (fun poisoned _ => ?_) trivial)
      fun count => ?_
    · cases poisoned with
      | true => trivial
      | false => exact ⟨trivial, fun _ _ => trivial⟩
    · refine Fallible.within_bind (Fallible.within_loop (fun driverStates => ?_) _ _)
        fun _ => trivial
      refine Fallible.within_bind (within_status config) fun state => ?_
      split
      · trivial
      refine Fallible.within_bind (within_now config) fun readTime => ?_
      refine Fallible.within_bind (Prog.Within.guarded trivial (fun poisoned _ => ?_) trivial)
        fun _ => Fallible.within_bind (within_sleep config _) fun _ => trivial
      cases poisoned with
      | true => exact Fallible.within_bind (within_note config _ _ _) fun _ => trivial
      | false => exact within_statusLocked config readTime driverStates

theorem within_heartbeat (turns : Nat) : StaysConfined config (heartbeat turns).run := by
  have hbeat : ∀ value millis, StaysConfined config (beat value millis).run := fun value millis =>
    Fallible.within_bind (p := Fallible.attempt _ _) ⟨trivial, fun _ _ => trivial⟩ fun _ =>
      within_sleep config _
  refine Fallible.within_bind (Fallible.within_loop (fun _ => ?_) _ _) fun _ => trivial
  refine Fallible.within_bind (within_status config) fun state => ?_
  split
  · trivial
  · exact Fallible.within_bind (hbeat _ _) fun _ => Fallible.within_bind (hbeat _ _) fun _ =>
      Fallible.within_bind (hbeat _ _) fun _ => Fallible.within_bind (hbeat _ _) fun _ => trivial

theorem within_accepting (profile : Profile) (fromSlice : List UInt8 → Option Command)
    (turns : Nat) : StaysConfined config (accepting config profile fromSlice turns).run := by
  refine Fallible.within_loop (fun _ => ?_) turns ()
  refine Fallible.within_bind (p := Fallible.call _) ⟨trivial, fun _ _ => trivial⟩ ?_
  rintro (e | src)
  · exact Fallible.within_bind (within_log config _ _ _) fun _ => trivial
  · refine Fallible.within_bind (p := Fallible.attempt _ _) ⟨trivial, fun _ _ => trivial⟩
      fun address => ?_
    refine Fallible.within_bind (within_log config _ _ _) fun _ => ?_
    refine Fallible.within_bind (p := Fallible.attempt _ _) ⟨trivial, fun _ _ => trivial⟩ fun _ => ?_
    refine Fallible.within_bind ?_ fun _ => trivial
    refine Fallible.within_bind
      (Prog.Within.guarded trivial (fun _ _ => ⟨trivial, fun _ _ => trivial⟩) trivial) fun _ => ?_
    exact Fallible.within_bind (within_log config _ _ _) fun _ =>
      (within_expand config _).bind fun _ => trivial

/-- **Every thread stays confined** while the user log is sound. -/
theorem Thread.program_within (F : Type) [F64 F] (profile : Profile)
    (fromSlice : List UInt8 → Option Command) (thread : Thread) :
    StaysConfined config (thread.program F config profile fromSlice) := by
  cases thread with
  | accepting turns => exact (within_accepting config profile fromSlice turns).discard
  | sensorListen groupId logFiles turns =>
    exact (within_sensorListen config profile groupId logFiles turns).discard
  | driverStatusListen turns => exact (within_driverStatusListen config turns).discard
  | heartbeat turns => exact (within_heartbeat config turns).discard
  | handleCommand cmd => exact within_expand config _
  | emergencyStop => exact within_expand config _

theorem controller_fork_within {a : Act} {p : Prog Act Act.Ans Unit}
    (h : (controller config).fork a = some p) : StaysConfined config p := by
  rcases controller_fork h with ⟨cmd, rfl⟩ | rfl
  · exact within_expand config _
  · exact within_expand config _

end Programs

/-! ## 5. What poisons a lock -/

/-- The locks no thread panics under. -/
def Lock.Steady : Lock → Prop
  | .adc _ | .driverLines => False
  | _ => True

/-- None of those locks is poisoned. -/
def Controller.Unharmed (c : Controller) : Prop := ∀ l, l.Steady → c.poisoned l = false

theorem Controller.poisoned_poison (c : Controller) (l l' : Lock) :
    (c.poison l').poisoned l = true ↔ c.poisoned l = true ∨ l = l' := by
  cases l with
  | adc i =>
    cases l' with
    | adc j => by_cases h : i = j <;> simp [poison, poisoned, h]
    | _ => simp [poison, poisoned]
  | _ => cases l' <;> simp [poison, poisoned]

theorem Controller.poisoned_foldl (l : Lock) : ∀ (guards : List Lock) (c : Controller),
    (guards.foldl poison c).poisoned l = true ↔ c.poisoned l = true ∨ l ∈ guards
  | [], c => by simp
  | l' :: guards, c => by
    rw [List.foldl_cons, poisoned_foldl l guards, poisoned_poison, List.mem_cons, or_assoc]

/-- No operation of the procedures poisons a lock, but for the write that panics. -/
theorem poisoned_exec_op (o : Op) (w : World) (c : Controller) (l : Lock) :
    ((Act.op o).exec w c).2.poisoned l = true ↔ c.poisoned l = true ∨
      (l = .driverLines ∧ ((Act.op o).exec w c).1 = none ∧
        ∃ driverId value, o = .write driverId value) := by
  cases o with
  | moveTo newState => cases l <;> simp [Act.exec, exec, Controller.poisoned]
  | sleep duration => cases l <;> simp [Act.exec, exec, Controller.poisoned]
  | now => cases l <;> simp [Act.exec, exec, Controller.poisoned]
  | spawn cmd => cases l <;> simp [Act.exec, exec, Controller.poisoned]
  | send message =>
    obtain ⟨hchannel, hlog⟩ :=
      c.shared.toDash.send_poisoned message w.now w.chanFails w.messageLogFails
    cases l <;> simp [Act.exec, exec, Controller.poisoned, hchannel, hlog]
  | logCommand time tag cmd =>
    cases hp : c.shared.cmdLog.poisoned <;> cases hf : w.cmdLogFails <;> cases l <;>
      simp [Act.exec, exec, Controller.poisoned, hp, hf]
  | userLog level message =>
    cases hp : c.shared.userLog.poisoned <;> cases hf : w.userLogFails <;> cases l <;>
      simp [Act.exec, exec, Controller.poisoned, hp, hf]
  | write driverId value =>
    cases hp : c.shared.driverLines.poisoned with
    | true => cases l <;> simp [Act.exec, exec, Controller.poisoned, hp]
    | false =>
      by_cases hlt : driverId.toNat < c.shared.driverLines.val.length
      · cases hf : w.pinFails <;> cases l <;>
          simp [Act.exec, exec_write_of_lt hp hlt, Controller.poisoned, hp, hf]
      · cases l <;> simp [Act.exec, exec_write_of_ge hp (Nat.not_lt.mp hlt), Controller.poisoned, hp]

/-- The call poisons the lock. -/
def Poisons (l : Lock) (call : Call Act.Ans) : Prop :=
  (∃ guards, call.op = .unwind guards ∧ l ∈ guards) ∨
    (l = .driverLines ∧ call.ans = none ∧ ∃ driverId value, call.op = .op (.write driverId value))

/-- **What one operation poisons.** -/
theorem poisoned_exec (a : Act) (w : World) (c : Controller) (l : Lock) :
    (a.exec w c).2.poisoned l = true ↔
      c.poisoned l = true ∨ Poisons l ⟨a, (a.exec w c).1⟩ := by
  have hkept : ∀ {c' : Controller}, c'.poisoned l = c.poisoned l →
      (∀ guards, a ≠ .unwind guards) → (∀ driverId value, a ≠ .op (.write driverId value)) →
      (c'.poisoned l = true ↔ c.poisoned l = true ∨ Poisons l ⟨a, (a.exec w c).1⟩) := by
    intro c' hc hunwind hwrite
    have hnot : ¬ Poisons l ⟨a, (a.exec w c).1⟩ := by
      rintro (⟨guards, h, -⟩ | ⟨-, -, driverId, value, h⟩)
      · exact hunwind guards h
      · exact hwrite driverId value h
    rw [hc, or_iff_left hnot]
  cases a with
  | unwind guards =>
    simp only [Act.exec, Controller.poisoned_foldl]
    refine or_congr_right ⟨fun h => Or.inl ⟨guards, rfl, h⟩, ?_⟩
    rintro (⟨guards', h, hmem⟩ | ⟨-, -, _, _, h⟩)
    · cases h
      exact hmem
    · cases h
  | op o =>
    rw [poisoned_exec_op]
    refine or_congr_right ⟨?_, ?_⟩
    · rintro ⟨hl, hnone, driverId, value, rfl⟩
      exact Or.inr ⟨hl, hnone, driverId, value, rfl⟩
    · rintro (⟨_, h, -⟩ | ⟨hl, hnone, driverId, value, h⟩)
      · cases h
      · exact ⟨hl, hnone, driverId, value, Act.op.inj h⟩
  | setChannel =>
    refine hkept ?_ (by simp) (by simp)
    cases hp : c.shared.toDash.dashChannel.poisoned <;> cases l <;>
      simp [Act.exec, Controller.poisoned, DashChannel.setChannel, hp]
  | readLine driverIdx =>
    refine hkept ?_ (by simp) (by simp)
    simp only [Act.exec]
    split <;> rfl
  | heartbeat value =>
    refine hkept ?_ (by simp) (by simp)
    simp only [Act.exec]
    split <;> cases l <;> rfl
  | writeDriverLog readTime driverStates => exact hkept (by cases l <;> rfl) (by simp) (by simp)
  | writeSensorLog file rows => exact hkept (by cases l <;> rfl) (by simp) (by simp)
  | _ => exact hkept rfl (by simp) (by simp)

/-- **A confined operation** leaves the other locks sound, and the user log answers so. -/
theorem unharmed_exec {config : Configuration} {a : Act} (ha : a.Confined config) (w : World)
    {c : Controller} (hc : c.Unharmed) :
    (∀ x, (a.exec w c).1 = some x → LogSound a x) ∧ (a.exec w c).2.Unharmed := by
  constructor
  · intro x hx
    cases a with
    | acquire l mode =>
      obtain rfl := Option.some.inj hx
      cases l with
      | userLog => exact hc .userLog trivial
      | _ => trivial
    | _ => trivial
  · intro l hl
    rw [← Bool.not_eq_true]
    intro hpoisoned
    rcases (poisoned_exec a w c l).mp hpoisoned with h | ⟨guards, h, hmem⟩ | ⟨h, -⟩
    · rw [hc l hl] at h
      cases h
    · change a = .unwind guards at h
      subst h
      obtain ⟨_, _, _, _, _, rfl⟩ := ha
      obtain rfl := List.mem_singleton.mp hmem
      exact hl
    · subst h
      exact hl

/-- **What panics** while the user log is sound. -/
theorem panics_of_unharmed {c : Controller} (hc : c.Unharmed) {a : Act} {w : World}
    (h : (a.exec w c).1 = none) : (∃ guards, a = .unwind guards) ∨
      ∃ driverId value, a = .op (.write driverId value) ∧
        c.shared.driverLines.val.length ≤ driverId.toNat := by
  have huser : c.shared.userLog.poisoned = false := hc .userLog trivial
  have hcmd : c.shared.cmdLog.poisoned = false := hc .cmdLog trivial
  cases a with
  | unwind guards => exact Or.inl ⟨guards, rfl⟩
  | op o =>
    cases o with
    | write driverId value =>
      refine Or.inr ⟨driverId, value, rfl, Nat.not_lt.mp fun hlt => ?_⟩
      cases hp : c.shared.driverLines.poisoned with
      | true => simp [Act.exec, exec, hp] at h
      | false =>
        simp only [Act.exec, exec_write_of_lt hp hlt] at h
        split at h <;> cases h
    | userLog level message =>
      simp only [Act.exec, exec, huser, Bool.false_eq_true, if_false] at h
      split at h <;> cases h
    | logCommand time tag cmd =>
      simp only [Act.exec, exec, hcmd, Bool.false_eq_true, if_false] at h
      split at h <;> cases h
    | _ => cases h
  | readLine driverIdx =>
    simp only [Act.exec] at h
    split at h <;> cases h
  | heartbeat value =>
    simp only [Act.exec] at h
    split at h <;> cases h
  | _ => cases h

/-! ## 6. The server -/

def ServerOp.Confined (config : Configuration) : ServerOp → Prop
  | act a => a.Confined config
  | _ => True

def ServerLogSound : (o : ServerOp) → o.Ans → Prop
  | .act a, x => LogSound a x
  | _, _ => True

section Server

variable {F : Type} [F64 F] {config : Configuration} {profile : Profile}
  {fromSlice : List UInt8 → Option Command} {turns : Nat} {lines : List Bool}
  {t : List (Event ServerOp.Ans)} {s : Sys ServerOp ServerOp.Ans Controller}

theorem within_ofActs {p : Prog Act Act.Ans α} (hp : StaysConfined config p) :
    (ofActs p).Within (ServerOp.Confined config) ServerLogSound :=
  .rename (g := ServerOp.act) (h := fun _ x => x) hp (fun _ h => h) fun _ _ h => h

theorem scopeClosure_within :
    (scopeClosure config profile fromSlice turns).run.Within (ServerOp.Confined config)
      ServerLogSound := by
  have hlog : ∀ level message, (Serving.log level message).run.Within (ServerOp.Confined config)
      ServerLogSound := fun level message => within_ofActs (within_log config [] level message)
  have hspawn : ∀ thread, (Serving.spawn thread).run.Within (ServerOp.Confined config)
      ServerLogSound := fun thread => ⟨trivial, fun _ _ => trivial⟩
  have hspawns : (spawnListeners config turns).run.Within (ServerOp.Confined config)
      ServerLogSound := by
    refine Fallible.within_bind ?_ fun _ =>
      Fallible.within_bind (hspawn _) fun _ => hspawn _
    generalize config.sensorGroups.zipIdx = groups
    induction groups with
    | nil => trivial
    | cons group groups ih => exact Fallible.within_bind (hspawn _) fun _ => ih
  refine Fallible.within_bind hspawns fun _ => ?_
  refine Fallible.within_bind (hlog _ _) fun _ => Fallible.within_bind (hlog _ _) fun _ => ?_
  refine Fallible.within_bind (p := Fallible.attempt _ _) ⟨trivial, fun _ _ => trivial⟩ fun _ => ?_
  refine Fallible.within_bind (p := Fallible.attempt _ _) ⟨trivial, fun _ _ => trivial⟩ fun _ => ?_
  refine Fallible.within_bind (hlog _ _) fun _ => Fallible.within_bind (hlog _ _) fun _ => ?_
  exact within_ofActs (within_accepting config profile fromSlice turns)

theorem server_fork_within {o : ServerOp} {p : Prog ServerOp ServerOp.Ans Unit}
    (h : (server F config profile fromSlice).fork o = some p) :
    p.Within (ServerOp.Confined config) ServerLogSound := by
  cases o with
  | act a =>
    obtain ⟨q, hq, rfl⟩ := Option.map_eq_some_iff.mp h
    exact within_ofActs (controller_fork_within config hq)
  | spawnListener thread =>
    obtain rfl := Option.some.inj h
    exact within_ofActs (thread.program_within config F profile fromSlice)
  | bind => cases h
  | localAddr => cases h

/-- **In every run of the server** six kinds of locks are sound, and what is performed, or about to
be, is confined. -/
theorem within_of_run (hrun : Run (server F config profile fromSlice)
    (serverOf config profile fromSlice turns lines) t s) :
    (s.shared.Unharmed ∧ s.shared.shared.driverLines.val.length = lines.length) ∧
      (∀ e ∈ t, e.call.op.Confined config) ∧
      ∀ p ∈ s.threads, p.Within (ServerOp.Confined config) ServerLogSound := by
  have hexec : ∀ (o : ServerOp) (w : ServerWorld) (c : Controller), o.Confined config →
      (c.Unharmed ∧ c.shared.driverLines.val.length = lines.length) →
      (∀ x, (o.exec w c).1 = some x → ServerLogSound o x) ∧
        ((o.exec w c).2.Unharmed ∧ (o.exec w c).2.shared.driverLines.val.length = lines.length) := by
    intro o w c ho hc
    cases o with
    | act a =>
      obtain ⟨hans, hunharmed⟩ := unharmed_exec ho w.toWorld hc.1
      exact ⟨hans, hunharmed, (length_exec a w.toWorld c).trans hc.2⟩
    | _ => exact ⟨fun _ _ => trivial, hc⟩
  have hs : ∀ p ∈ (serverOf config profile fromSlice turns lines).threads,
      p.Within (ServerOp.Confined config) ServerLogSound := by
    intro p hp
    obtain rfl := List.mem_singleton.mp hp
    exact scopeClosure_within.discard
  obtain ⟨hI, ht, hthreads⟩ := Run.within hexec (fun _ _ _ h => server_fork_within h) hs
    ⟨fun l _ => by cases l <;> rfl, rfl⟩ hrun
  exact ⟨hI, fun e he => (ht e he).1, hthreads⟩

theorem unharmed_of_run (hrun : Run (server F config profile fromSlice)
    (serverOf config profile fromSlice turns lines) t s) :
    (s.shared.Unharmed ∧ s.shared.shared.driverLines.val.length = lines.length) ∧
      ∀ e ∈ t, e.call.op.Confined config :=
  ⟨(within_of_run hrun).1, (within_of_run hrun).2.1⟩

/-- What is poisoned was poisoned by some call. -/
theorem poisoned_of_run (hrun : Run (server F config profile fromSlice)
    (serverOf config profile fromSlice turns lines) t s) (l : Lock) :
    s.shared.poisoned l = true ↔
      ∃ e ∈ t, ∃ a x, e.call = ⟨ServerOp.act a, x⟩ ∧ Poisons l ⟨a, x⟩ := by
  induction hrun with
  | refl =>
    constructor
    · intro h
      cases l <;> cases h
    · rintro ⟨e, he, -⟩
      cases he
  | @tail m m' t e _ hstep ih =>
    obtain ⟨w, hans, hshared⟩ := hstep.exec
    have hlast : m'.shared.poisoned l = true ↔ m.shared.poisoned l = true ∨
        ∃ a x, e.call = ⟨ServerOp.act a, x⟩ ∧ Poisons l ⟨a, x⟩ := by
      obtain ⟨tid, ⟨op, ans⟩⟩ := e
      rw [hshared]
      cases op with
      | act a =>
        obtain rfl : ans = (a.exec w.toWorld m.shared).1 := hans
        refine (poisoned_exec a w.toWorld m.shared l).trans (or_congr_right ⟨fun h => ⟨a, _, rfl, h⟩, ?_⟩)
        rintro ⟨a', x, h, hp⟩
        cases h
        exact hp
      | _ => exact ⟨Or.inl, fun h => h.resolve_right (by rintro ⟨_, _, h, -⟩; cases h)⟩
    rw [hlast, ih]
    simp only [List.mem_append, List.mem_singleton, or_and_right, exists_or, exists_eq_left]

/-- **What panics** is a thread with the guard of an ADC, or a write past the last line. -/
theorem panic_of_run (hrun : Run (server F config profile fromSlice)
      (serverOf config profile fromSlice turns lines) t s) {e : Event ServerOp.Ans} (he : e ∈ t)
    (hnone : e.call.ans = none) :
    (∃ group ∈ config.sensorGroups, ∃ sensor ∈ group.sensors, sensor.Faulty ∧
      e.call.op = .act (.unwind [.adc sensor.adc])) ∨
    ∃ driverId value, e.call.op = .act (.op (.write driverId value)) ∧
      lines.length ≤ driverId.toNat := by
  have h := (unharmed_of_run hrun).2 e he
  obtain ⟨t₁, t₂, rfl⟩ := List.append_of_mem he
  obtain ⟨m, m', hmoment⟩ := hrun.moment
  obtain ⟨⟨hunharmed, hlength⟩, -⟩ := unharmed_of_run hmoment.before
  obtain ⟨w, hans, -⟩ := hmoment.step.exec
  obtain ⟨tid, ⟨op, ans⟩⟩ := e
  cases op with
  | act a =>
    rcases panics_of_unharmed hunharmed (hans.symm.trans hnone) with
      ⟨guards, rfl⟩ | ⟨driverId, value, rfl, hle⟩
    · obtain ⟨group, hgroup, sensor, hsensor, hfaulty, rfl⟩ := h
      exact Or.inl ⟨group, hgroup, sensor, hsensor, hfaulty, rfl⟩
    · exact Or.inr ⟨driverId, value, rfl, hlength ▸ hle⟩
  | spawnListener thread => cases hans.symm.trans hnone
  | bind => cases hans.symm.trans hnone
  | localAddr => cases hans.symm.trans hnone

/-- **What is poisoned** was poisoned under the guard of an ADC, or by a write that panicked. -/
theorem poisoned_iff (hrun : Run (server F config profile fromSlice)
      (serverOf config profile fromSlice turns lines) t s) (l : Lock) :
    s.shared.poisoned l = true ↔
      (∃ i, l = .adc i ∧ ∃ e ∈ t, e.call.op = .act (.unwind [.adc i])) ∨
      (l = .driverLines ∧ ∃ e ∈ t, e.call.ans = none ∧
        ∃ driverId value, e.call.op = .act (.op (.write driverId value))) := by
  obtain ⟨-, hconfined⟩ := unharmed_of_run hrun
  rw [poisoned_of_run hrun]
  constructor
  · rintro ⟨e, he, a, x, hcall, ⟨guards, ha, hmem⟩ | ⟨hl, hnone, driverId, value, ha⟩⟩
    · have h := hconfined e he
      change a = .unwind guards at ha
      subst ha
      rw [hcall] at h
      obtain ⟨_, _, sensor, _, -, rfl⟩ := h
      obtain rfl := List.mem_singleton.mp hmem
      exact Or.inl ⟨_, rfl, e, he, by rw [hcall]⟩
    · change a = .op (.write driverId value) at ha
      subst ha
      change x = none at hnone
      subst hnone
      exact Or.inr ⟨hl, e, he, by rw [hcall], driverId, value, by rw [hcall]⟩
  · rintro (⟨i, rfl, e, he, hop⟩ | ⟨rfl, e, he, hnone, driverId, value, hop⟩)
    · obtain ⟨tid, ⟨op, ans⟩⟩ := e
      cases hop
      exact ⟨_, he, _, _, rfl, Or.inl ⟨_, rfl, List.mem_singleton_self _⟩⟩
    · obtain ⟨tid, ⟨op, ans⟩⟩ := e
      cases hop
      exact ⟨_, he, _, _, rfl, Or.inr ⟨rfl, hnone, driverId, value, rfl⟩⟩

end Server

/-! ## 7. The host -/

section Host

variable {F : Type} [F64 F] {config : Configuration} {profile : Profile}
  {fromSlice : List UInt8 → Option Command} {turns adcs : Nat} {lines : List Bool}
  {t : List (Event HostOp.Ans)} {s : Sys HostOp HostOp.Ans Controller}

/-- A thread that stands before an ADC that is not there is one that reads a sensor. -/
theorem missing_of_pending {s : Sys ServerOp ServerOp.Ans Controller}
    {t : List (Event ServerOp.Ans)} (hrun : Run (server F config profile fromSlice)
      (serverOf config profile fromSlice turns lines) t s) {i : Nat} {o : ServerOp}
    {k : o.Ans → Prog ServerOp ServerOp.Ans Unit} (hk : s.threads[i]? = some (.op o k))
    (hpast : o.pastAdcs adcs = true) :
    ∃ group ∈ config.sensorGroups, ∃ sensor ∈ group.sensors, adcs ≤ sensor.adc.toNat ∧
      ∃ mode, o = .act (.acquire (.adc sensor.adc) mode) := by
  have hconfined : o.Confined config := ((within_of_run hrun).2.2 _ (List.mem_of_getElem? hk)).1
  unfold ServerOp.pastAdcs at hpast
  split at hpast
  · obtain ⟨group, hgroup, sensor, hsensor, rfl⟩ := hconfined
    exact ⟨group, hgroup, sensor, hsensor, of_decide_eq_true hpast, _, rfl⟩
  · cases hpast

/-- **What is refused** on a host that provides is a sensor its ADC. -/
theorem missing_of_refused (hrun : Run (hosted F config profile fromSlice adcs)
      (hostedOf config profile fromSlice turns lines) t s) (hprovided : Provided t)
    {e : Event HostOp.Ans} (he : e ∈ t) {guards : List Lock} {o : ServerOp}
    (hcall : e.call = ⟨.ask guards o, none⟩) :
    ∃ group ∈ config.sensorGroups, ∃ sensor ∈ group.sensors, adcs ≤ sensor.adc.toNat ∧
      ∃ mode, o = .act (.acquire (.adc sensor.adc) mode) := by
  obtain ⟨t₁, t₂, rfl⟩ := List.append_of_mem he
  obtain ⟨m, m', hmoment⟩ := hrun.moment
  obtain ⟨n, hbefore, hn⟩ := server_of_hosted hmoment.before hprovided.initial
  have hpast := pastAdcs_of_refused hmoment.step
    (fun e' he' => hprovided e' (by rw [List.mem_singleton.mp he']; exact he)) hcall
  obtain ⟨k, hk, -⟩ := hmoment.step.self
  obtain ⟨tid, call⟩ := e
  obtain rfl : call = ⟨.ask guards o, none⟩ := hcall
  obtain ⟨p, hp, hasks⟩ := hn.threads _ _ hk
  obtain ⟨k', rfl, -⟩ := hasks.of_ask
  exact missing_of_pending hbefore hp hpast

/-- **Poison is confined.**  In every run of the server, with any number of ADCs, on a host that provides
what it needs, a lock is poisoned exactly if a thread has panicked with the guard of an ADC in its hand,
and it is that ADC's; or a thread has panicked in a write, and it is that of the driver lines.  Every
panic in an operation is one of three: a sensor has a channel no ADC has, or an average of no width; its
ADC is not there; or a write was past the last driver line. -/
theorem poison_confined (F : Type) [F64 F] (config : Configuration) (profile : Profile)
    (fromSlice : List UInt8 → Option Command) (turns adcs : Nat) (lines : List Bool)
    (t : List (Event HostOp.Ans)) (s : Sys HostOp HostOp.Ans Controller)
    (hrun : Run (hosted F config profile fromSlice adcs)
      (hostedOf config profile fromSlice turns lines) t s) (hprovided : Provided t) :
    (∀ l, s.shared.poisoned l = true ↔
      (∃ i, l = .adc i ∧ ∃ e ∈ t, e.call.op = .call (.act (.unwind [.adc i]))) ∨
      (l = .driverLines ∧ ∃ e ∈ t, e.call.ans = none ∧
        ∃ driverId value, e.call.op = .call (.act (.op (.write driverId value))))) ∧
    ∀ e ∈ t, e.call.ans = none →
      (∃ group ∈ config.sensorGroups, ∃ sensor ∈ group.sensors, sensor.Faulty ∧
        e.call.op = .call (.act (.unwind [.adc sensor.adc]))) ∨
      (∃ group ∈ config.sensorGroups, ∃ sensor ∈ group.sensors, adcs ≤ sensor.adc.toNat ∧
        ∃ guards mode, e.call.op = .ask guards (.act (.acquire (.adc sensor.adc) mode))) ∨
      ∃ driverId value, e.call.op = .call (.act (.op (.write driverId value))) ∧
        lines.length ≤ driverId.toNat := by
  obtain ⟨n, hserver, hhosts⟩ := server_of_hosted hrun hprovided
  rw [hhosts.shared]
  refine ⟨fun l => ?_, fun e he hnone => ?_⟩
  · rw [poisoned_iff hserver]
    refine or_congr (exists_congr fun i => and_congr_right fun _ => ?_) (and_congr_right fun _ => ?_)
    · constructor
      · rintro ⟨⟨tid, ⟨o, x⟩⟩, he, rfl⟩
        exact ⟨_, mem_called.mp he, rfl⟩
      · rintro ⟨⟨tid, ⟨_, x⟩⟩, he, rfl⟩
        exact ⟨_, mem_called.mpr he, rfl⟩
    · constructor
      · rintro ⟨⟨tid, ⟨o, x⟩⟩, he, hnone, driverId, value, rfl⟩
        exact ⟨_, mem_called.mp he, hnone, driverId, value, rfl⟩
      · rintro ⟨⟨tid, ⟨_, x⟩⟩, he, hnone, driverId, value, rfl⟩
        exact ⟨_, mem_called.mpr he, hnone, driverId, value, rfl⟩
  · obtain ⟨tid, ⟨op, x⟩⟩ := e
    obtain rfl : x = none := hnone
    cases op with
    | ask guards o =>
      obtain ⟨group, hgroup, sensor, hsensor, hmissing, mode, rfl⟩ :=
        missing_of_refused hrun hprovided he rfl
      exact Or.inr (Or.inl ⟨group, hgroup, sensor, hsensor, hmissing, guards, mode, rfl⟩)
    | call o =>
      rcases panic_of_run hserver (mem_called.mpr he) rfl with
        ⟨group, hgroup, sensor, hsensor, hfaulty, hop⟩ | ⟨driverId, value, hop, hpast⟩
      · exact Or.inl ⟨group, hgroup, sensor, hsensor, hfaulty, congrArg Asked.call hop⟩
      · exact Or.inr (Or.inr ⟨driverId, value, congrArg Asked.call hop, hpast⟩)

end Host

/-- A client sends an `Actuate` of driver 1 to a stand with one driver: the write panics, and the
driver lines are poisoned, but no other lock. -/
theorem write_past_end_poisons : ∃ t s,
    Run (hosted ℚ (.oneDriver [] []) .release (fun _ => some (.actuate 1 true)) 0)
      (hostedOf (.oneDriver [] []) .release (fun _ => some (.actuate 1 true)) 1 [false]) t s ∧
    (∀ l, s.shared.poisoned l = true ↔ l = .driverLines) ∧
    ∃ e ∈ t, e.call.ans = none ∧
      ∃ driverId value, e.call.op = .call (.act (.op (.write driverId value))) := by
  obtain ⟨t, s, hrun, hlines⟩ := exists_guardedRun
    (M := hosted ℚ (.oneDriver [] []) .release (fun _ => some (.actuate 1 true)) 0)
    (C := fun _ _ e => provides e) (G := fun _ _ e => provides e = true) (fun _ _ _ h => h)
    -- each operation of the thread is asked for and performed
    (List.replicate 90 (0, { HostWorld.fine with incoming := .ok (.ofBytes [123, 125]) }))
    (s := hostedOf (.oneDriver [] []) .release (fun _ => some (.actuate 1 true)) 1 [false])
    (P := fun _ s => s.shared.poisoned .driverLines) (by decide +kernel)
  have hprovided : Provided t := provided_of_guardedRun hrun fun _ _ _ h => h
  obtain ⟨hpoisoned, hpanics⟩ := poison_confined ℚ _ _ _ _ _ _ t s hrun.run hprovided
  obtain ⟨e, he, hwrite⟩ : ∃ e ∈ t, e.call.ans = none ∧
      ∃ driverId value, e.call.op = .call (.act (.op (.write driverId value))) := by
    rcases (hpoisoned .driverLines).mp hlines with ⟨i, h, -⟩ | ⟨-, h⟩
    · cases h
    · exact h
  refine ⟨t, s, hrun.run, fun l => ⟨fun hl => ?_, ?_⟩, e, he, hwrite⟩
  · -- the stand has no sensors, so no ADC is poisoned
    rcases (hpoisoned l).mp hl with ⟨i, -, ⟨tid, ⟨_, x⟩⟩, he', rfl⟩ | ⟨rfl, -⟩
    · obtain ⟨n, hserver, -⟩ := server_of_hosted hrun.run hprovided
      obtain ⟨group, hgroup, -⟩ := (unharmed_of_run hserver).2 _ (mem_called.mpr he')
      cases hgroup
    · rfl
  · rintro rfl
    exact hlines

end Slonk
