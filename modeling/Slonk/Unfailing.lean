/-
# No thread ever panics

`Poisoning.lean` says what a panic poisons.  This file says when there is none: on a host that provides
what the server needs (`Host.lean`), on a stand whose configuration is sane and whose ADCs are all there,
as long as the clients are harmless.

* A configuration is *sane* when it is accepted and what the checks of `parse` do not cover is in order:
  the frequencies and widths it divides by are not zero, its sequences name drivers that exist, and its
  groups are few enough for a `u8`.
* A client is *harmless* when none of its messages overflows the count of the braces, and none names the
  driver after the last one.

Then no thread panics, in any such run of the server, and no lock is ever poisoned (`never_panics`).  So
whatever is said of runs that meet no poisoned lock is said of every such run.

No program but that of the closure can come to a panic of its own; the closure may, with the client it
serves, so what it promises depends on the clients that have been accepted (`enduring`).
-/
import Slonk.CommandLog
import Slonk.OpenPort

namespace Slonk

open Concurrency

/-- A configuration whose threads can do what they are for. -/
structure Configuration.Sane (config : Configuration) : Prop where
  accepted : config.Accepted
  monitorable : config.Monitorable
  drivers : DriversExist config
  groups : config.sensorGroups.length ≤ 256

/-- A command that does not name the driver after the last one. -/
def Command.Harmless (config : Configuration) : Command → Prop
  | .actuate driverId _ => driverId.toNat ≠ config.drivers.length
  | _ => True

/-- A client that sends harmless commands, and messages whose braces can be counted. -/
structure Harmless (config : Configuration) (profile : Profile)
    (fromSlice : List UInt8 → Option Command) (src : Source) : Prop where
  counts : overflows profile fromSlice (src.length + 1) src = false
  commands : ∀ cmd ∈ decode profile fromSlice src, cmd.Harmless config

instance (config : Configuration) : (cmd : Command) → Decidable (cmd.Harmless config)
  | .actuate driverId _ => inferInstanceAs (Decidable (driverId.toNat ≠ config.drivers.length))
  | .ignition => inferInstanceAs (Decidable True)
  | .emergencyStop => inferInstanceAs (Decidable True)

instance (config : Configuration) (profile : Profile) (fromSlice : List UInt8 → Option Command)
    (src : Source) : Decidable (Harmless config profile fromSlice src) :=
  decidable_of_iff (overflows profile fromSlice (src.length + 1) src = false ∧
    ∀ cmd ∈ decode profile fromSlice src, cmd.Harmless config) ⟨fun h => ⟨h.1, h.2⟩, fun h => ⟨h.1, h.2⟩⟩

/-! ## 1. Programs without a panic in them -/

section NoPanic

variable {config : Configuration} {profile : Profile}

theorem writeLog_noPanic (guards : List Lock) (level : LogLevel) (message : UserMessage) :
    (writeLog guards level message).NoPanic := by
  refine fun poisoned => Prog.NoPanic.bind ?_ fun _ _ => trivial
  cases poisoned with
  | true => exact fun x => nomatch x
  | false => exact fun _ => trivial

theorem critical_noPanic (o : Op) : (critical o).NoPanic := by
  cases o with
  | send message =>
    refine fun poisoned => Prog.NoPanic.bind ?_ fun _ _ => trivial
    cases poisoned with
    | true => trivial
    | false => exact fun _ _ _ => trivial
  | logCommand time tag cmd =>
    intro _ r
    match r with
    | .ok () => exact fun _ => trivial
    | .error .poisoned => exact fun _ => trivial
    | .error .io => trivial
  | userLog level message =>
    simp only [critical]
    split
    · exact (writeLog_noPanic _ _ _).bind fun _ _ => trivial
    · exact writeLog_noPanic _ _ _
  | moveTo newState => exact fun _ _ _ => trivial
  | write driverId value => exact fun _ _ _ => trivial
  | sleep duration => exact fun _ => trivial
  | now => exact fun _ => trivial
  | spawn cmd => exact fun _ => trivial

theorem commandRoutine_noPanic (cmd : Command) : (commandRoutine config cmd).NoPanic :=
  Prog.NoPanic.expand ((handleCommand_noPanic config cmd).bind fun _ _ => trivial) critical_noPanic

theorem stopRoutine_noPanic : (stopRoutine config).NoPanic :=
  Prog.NoPanic.expand ((emergencyStop_noPanic config).bind fun _ => trivial) critical_noPanic

theorem note_noPanic (guards : List Lock) (level : LogLevel) (message : UserMessage) :
    (Routine.note guards level message).run.NoPanic :=
  (writeLog_noPanic guards level message).bind fun _ => trivial

theorem send_noPanic (message : Message) : (Routine.send message).run.NoPanic :=
  (critical_noPanic (.send message)).bind fun _ => trivial

theorem status_noPanic : Routine.status.run.NoPanic := fun _ _ _ => trivial

theorem now_noPanic : Routine.now.run.NoPanic := fun _ => trivial

theorem pause_noPanic (duration : Duration) : (Routine.sleep duration).run.NoPanic :=
  fun _ => trivial

section SensorListen

variable {F : Type} [F64 F] {group : SensorGroup}

theorem sampleLocked_noPanic (idx : Fin group.size) (locals : Locals F group.size) :
    (sampleLocked profile group idx locals).run.NoPanic := by
  have hread : (readAdc (group.sensor idx)).run.NoPanic := by
    unfold readAdc
    split
    · exact fun x => nomatch x
    · refine fun poisoned => Prog.NoPanic.bind ?_ fun _ _ => trivial
      cases poisoned with
      | true => trivial
      | false => exact fun _ => trivial
  refine Fallible.noPanic_bind hread ?_
  rintro (e | reading)
  · exact Fallible.noPanic_bind (note_noPanic _ _ _) fun _ => trivial
  · refine Fallible.noPanic_bind now_noPanic fun readTime => ?_
    dsimp only
    split
    · exact fun x => nomatch x
    · refine Fallible.noPanic_bind ?_ fun _ => trivial
      unfold checkRange
      split
      · exact Fallible.noPanic_bind (note_noPanic _ _ _) fun _ _ => trivial
      · trivial

theorem sample_noPanic (locals : Locals F group.size) (idx : Fin group.size) :
    (sample profile group locals idx).run.NoPanic := by
  refine Fallible.noPanic_bind (fun poisoned => Prog.NoPanic.bind ?_ fun _ _ => trivial) ?_
  · cases poisoned with
    | true => trivial
    | false => exact Fallible.noPanic_bind (sampleLocked_noPanic idx locals) fun _ => trivial
  · rintro (_ | locals)
    · exact Fallible.noPanic_bind (note_noPanic _ _ _) fun _ => trivial
    · trivial

omit [F64 F] in
theorem transmit_noPanic (groupId : UInt8) (period : Duration) (locals : Locals F group.size) :
    (transmit group groupId period locals).run.NoPanic := by
  have hdone : (do
      let time ← Routine.now
      pure { locals with
        lastTransmissionTime := time, transmissionReadings := Vector.replicate _ none } :
      Routine RunError (Locals F group.size)).run.NoPanic :=
    Fallible.noPanic_bind now_noPanic fun _ => trivial
  refine Fallible.noPanic_bind now_noPanic fun time => ?_
  dsimp only
  split
  · refine Fallible.noPanic_bind (fun _ _ _ => trivial) ?_
    rintro (_ | _)
    · exact hdone
    · exact Fallible.noPanic_bind (send_noPanic _) fun _ => hdone
  · trivial

/-- There is a log file for each sensor. -/
theorem flush_noPanic {logFiles : List LogFile} (hfiles : logFiles.length = group.size)
    (locals : Locals F group.size) (idx : Fin group.size) :
    (flush config group logFiles locals idx).run.NoPanic := by
  have hlt : idx.val < logFiles.length := by
    rw [hfiles]
    exact idx.isLt
  unfold flush
  dsimp only
  split
  · rw [List.getElem?_eq_getElem hlt]
    refine Fallible.noPanic_bind (fun _ => trivial) ?_
    rintro (_ | _)
    · exact Fallible.noPanic_bind (note_noPanic _ _ _) fun _ => trivial
    · trivial
  · trivial

theorem sensorListen_noPanic {groupId : UInt8} {logFiles : List LogFile}
    (hgroup : config.sensorGroups[groupId.toNat]? = some group) (hmonitorable : group.Monitorable)
    (hfiles : logFiles.length = group.size) (turns : Nat) :
    (sensorListen F config profile groupId logFiles turns).run.NoPanic := by
  obtain ⟨periods, hperiods⟩ : ∃ periods, group.periods.value = some periods :=
    SensorGroup.Ticks.periods ⟨hmonitorable.standby, hmonitorable.ignition, hmonitorable.transmission⟩
  unfold sensorListen
  rw [hgroup]
  refine Fallible.noPanic_bind now_noPanic fun time => ?_
  rw [hperiods]
  refine Fallible.noPanic_bind (Fallible.noPanic_loop (fun locals => ?_) _ _) fun _ => trivial
  refine Fallible.noPanic_bind status_noPanic fun state => ?_
  dsimp only
  split
  · trivial
  refine Fallible.noPanic_bind (Fallible.noPanic_foldlM sample_noPanic _ _) fun locals => ?_
  refine Fallible.noPanic_bind (transmit_noPanic groupId _ _) fun locals => ?_
  refine Fallible.noPanic_bind (Fallible.noPanic_foldlM (flush_noPanic hfiles) _ _) fun locals => ?_
  exact Fallible.noPanic_bind status_noPanic fun state =>
    Fallible.noPanic_bind (pause_noPanic _) fun _ => trivial

end SensorListen

theorem driverStatusListen_noPanic (h : config.frequencyStatus ≠ 0) (turns : Nat) :
    (driverStatusListen config turns).run.NoPanic := by
  have hlocked : ∀ readTime driverStates, (statusLocked readTime driverStates).run.NoPanic := by
    intro readTime driverStates
    refine Fallible.noPanic_bind (Fallible.noPanic_foldlM (fun driverStates driverIdx => ?_) _ _)
      fun driverStates => ?_
    · refine Fallible.noPanic_bind (fun _ => trivial) ?_
      rintro (_ | _)
      · exact Fallible.noPanic_bind (log_noPanic _ _ _) fun _ => trivial
      · trivial
    · refine Fallible.noPanic_bind (fun _ => trivial) fun _ => ?_
      exact Fallible.noPanic_bind (send_noPanic _) fun _ => trivial
  unfold driverStatusListen Configuration.statusPeriod
  rw [Duration.divide_of_ne h]
  refine Fallible.noPanic_bind (fun poisoned => Prog.NoPanic.bind ?_ fun _ _ => trivial) fun count => ?_
  · cases poisoned with
    | true => trivial
    | false => exact fun _ => trivial
  · refine Fallible.noPanic_bind (Fallible.noPanic_loop (fun driverStates => ?_) _ _) fun _ => trivial
    refine Fallible.noPanic_bind status_noPanic fun state => ?_
    split
    · trivial
    refine Fallible.noPanic_bind now_noPanic fun readTime => ?_
    refine Fallible.noPanic_bind (fun poisoned => Prog.NoPanic.bind ?_ fun _ _ => trivial)
      fun _ => Fallible.noPanic_bind (pause_noPanic _) fun _ => trivial
    cases poisoned with
    | true => exact Fallible.noPanic_bind (note_noPanic _ _ _) fun _ => trivial
    | false => exact hlocked readTime driverStates

theorem heartbeat_noPanic (turns : Nat) : (heartbeat turns).run.NoPanic := by
  have hbeat : ∀ value millis, (beat value millis).run.NoPanic := fun value millis =>
    Fallible.noPanic_bind (fun _ => trivial) fun _ => pause_noPanic _
  refine Fallible.noPanic_bind (Fallible.noPanic_loop (fun _ => ?_) _ _) fun _ => trivial
  refine Fallible.noPanic_bind status_noPanic fun state => ?_
  split
  · trivial
  · exact Fallible.noPanic_bind (hbeat _ _) fun _ => Fallible.noPanic_bind (hbeat _ _) fun _ =>
      Fallible.noPanic_bind (hbeat _ _) fun _ => Fallible.noPanic_bind (hbeat _ _) fun _ => trivial

/-- **No listener of a sane configuration panics by itself.** -/
theorem listener_noPanic (F : Type) [F64 F] {fromSlice : List UInt8 → Option Command} {turns : Nat}
    (hsane : config.Sane) {thread : Thread} (h : thread ∈ listeners config turns) :
    (thread.program F config profile fromSlice).NoPanic := by
  rcases List.mem_append.mp h with h | h
  · obtain ⟨⟨group, g⟩, hg, rfl⟩ := List.mem_map.mp h
    obtain ⟨hget, hlt⟩ : config.sensorGroups[g]? = some group ∧ g < 256 := by
      have hget := List.mem_zipIdx_iff_getElem?.mp hg
      exact ⟨hget, lt_of_lt_of_le (List.getElem?_eq_some_iff.mp hget).1 hsane.groups⟩
    have hgroup : config.sensorGroups[(UInt8.ofNat g).toNat]? = some group := by
      rwa [UInt8.toNat_ofNat_of_lt' hlt]
    exact (sensorListen_noPanic hgroup (hsane.monitorable.groups group (List.mem_of_getElem? hget))
      (by simp [SensorGroup.logFiles]) turns).bind fun _ => trivial
  · simp only [List.mem_cons, List.not_mem_nil, or_false] at h
    rcases h with rfl | rfl
    · exact (driverStatusListen_noPanic hsane.monitorable.status turns).bind fun _ => trivial
    · exact (heartbeat_noPanic turns).bind fun _ => trivial

end NoPanic

/-! ## 2. Writes to lines that exist -/

/-- The operation is not a write past these lines. -/
def Act.InRange (n : Nat) : Act → Prop
  | op o => Slonk.InRange n o
  | _ => True

theorem inRange_of_unconcerned {n : Nat} {a : Act} (h : a.Unconcerned) : a.InRange n := by
  cases a with
  | op o =>
    cases o with
    | write driverId value => exact h.elim
    | _ => trivial
  | _ => trivial

section InRange

variable {config : Configuration} {profile : Profile} {fromSlice : List UInt8 → Option Command}
  {cmd : Command}

theorem inRange_of_logs {n : Nat} (o : Op) (h : o.Logs) : InRange n o := by
  cases o with
  | write driverId value => exact h.elim
  | _ => trivial

/-- **A harmless command** stays in range: the driver it names exists, or it is refused. -/
theorem handleCommand_inRange_of_harmless (hdrivers : DriversExist config)
    (hcmd : cmd.Harmless config) :
    (handleCommand config cmd).run.All (InRange config.drivers.length) := by
  have hrange : CommandInRange config config.drivers.length cmd →
      (handleCommand config cmd).run.All (InRange config.drivers.length) :=
    fun h => (handleCommand_inRange h).mono fun _ ho => ho.1
  cases cmd with
  | actuate driverId value =>
    rcases Nat.lt_or_gt_of_ne hcmd with hlt | hgt
    · exact hrange hlt
    · refine handleCommand_all inRange_of_logs ?_
      simp only [execute, if_pos hgt]
      trivial
  | ignition => exact hrange (hdrivers _ (by simp))
  | emergencyStop => exact hrange (hdrivers _ (by simp))

theorem handleMessage_inRange (hdrivers : DriversExist config)
    {result : Except IncomingError Command} (h : ∀ cmd, result = .ok cmd → cmd.Harmless config) :
    (handleMessage config result).run.All (InRange config.drivers.length) := by
  have hother : (∀ driverId value, result ≠ .ok (.actuate driverId value)) →
      (handleMessage config result).run.All (InRange config.drivers.length) := fun hne =>
    handleMessage_all inRange_of_logs (fun d v hd => absurd hd (hne d v)) fun _ _ _ => trivial
  cases result with
  | error e => exact hother (by simp)
  | ok cmd =>
    cases cmd with
    | actuate driverId value =>
      have hlog : ∀ level message,
          (logUser level message).run.All (InRange config.drivers.length) :=
        logUser_all inRange_of_logs
      refine Fallible.all_bind (Fallible.all_bind
        (p := ExceptT.lift (handleCommand config (.actuate driverId value)).run) ?_ ?_)
        fun _ => trivial
      · exact (handleCommand_inRange_of_harmless hdrivers (h _ rfl)).bind fun _ => trivial
      · rintro (e | u)
        · exact hlog _ _
        · exact hlog _ _
    | ignition => exact hother (by simp)
    | emergencyStop => exact hother (by simp)

theorem handleClient_inRange (hdrivers : DriversExist config) {src : Source}
    (hsrc : Harmless config profile fromSlice src) :
    (handleClient config profile fromSlice src).run.All (InRange config.drivers.length) := by
  have hlog : ∀ level message, (logUser level message).run.All (InRange config.drivers.length) :=
    logUser_all inRange_of_logs
  have hloop : (∀ cmd ∈ decode profile fromSlice src, cmd.Harmless config) →
      (handleClientLoop config profile fromSlice (src.length + 1) src).run.All
        (InRange config.drivers.length) := by
    refine handleClientLoop_induct (motive := fun p cmds => (∀ cmd ∈ cmds, cmd.Harmless config) →
      p.run.All (InRange config.drivers.length)) ?_ ?_ ?_ ?_ _ src
    · exact fun _ => trivial
    · exact fun _ => Fallible.all_bind (hlog _ _) fun _ => trivial
    · intro e p cmds _ _ ih hcmds
      refine Fallible.all_bind (handleMessage_inRange hdrivers (by simp)) ?_
      rintro (_ | _)
      · trivial
      · exact ih hcmds
    · intro cmd p cmds ih hcmds
      rw [List.forall_mem_cons] at hcmds
      refine Fallible.all_bind (handleMessage_inRange hdrivers ?_) ?_
      · rintro _ ⟨⟩
        exact hcmds.1
      · rintro (_ | _)
        · trivial
        · exact ih hcmds.2
  refine Fallible.all_bind ⟨trivial, fun r => ?_⟩ fun _ =>
    Fallible.all_bind (hlog _ _) fun _ => hloop hsrc.commands
  cases r <;> trivial

theorem expand_inRange {α : Type} {n : Nat} {p : Prog Op Op.Ans α} (hp : p.All (InRange n)) :
    (p.expand critical).All (Act.InRange n) :=
  hp.expand fun _ ho => critical_all
    (fun _ h => inRange_of_unconcerned (unconcerned_of_common h.common)) ho

end InRange

/-! ## 3. What holds while the clients are harmless -/

section Enduring

variable {config : Configuration} {profile : Profile} {fromSlice : List UInt8 → Option Command}
  {turns : Nat}

/-- **While every client that has been accepted is harmless**, there is no panic, and no write past the
last line. -/
def enduring (config : Configuration) (profile : Profile) (fromSlice : List UInt8 → Option Command) :
    Protocol Act Act.Ans (List Source) where
  permits γ a := (∀ src ∈ γ, Harmless config profile fromSlice src) →
    a.InRange config.drivers.length
  aborts γ := ¬ ∀ src ∈ γ, Harmless config profile fromSlice src
  next γ c := γ ++ (clientOf c).toList

/-- A program that writes in range, and does not panic. -/
theorem obeys_enduring {α : Type} {p : Prog Act Act.Ans α}
    (hp : p.All (Act.InRange config.drivers.length)) (hn : p.NoPanic) :
    p.Obeys (enduring config profile fromSlice) :=
  hp.obeys (fun _ _ ha _ => ha) fun _ h => absurd hn h

/-- **The closure** may write out of range, or panic, only for a client that is not harmless. -/
theorem closure_enduring (hdrivers : DriversExist config) :
    (scopeClosure config profile fromSlice turns).run.Obeys
      ((enduring config profile fromSlice).through serverAct) := by
  have hT : AboutCommands (enduring config profile fromSlice) :=
    fun _ _ ha _ => inRange_of_unconcerned ha
  refine scopeClosure_obeys hT (accepting_obeys (I := fun src γ => src ∈ γ) hT ?_ ?_ ?_)
  · exact fun γ src => List.mem_append_right γ (List.mem_singleton_self src)
  · exact fun src γ c h => List.mem_append_left _ h
  · intro src γ hsrc
    by_cases hharmless : Harmless config profile fromSlice src
    · refine obeys_enduring ?_ ?_ γ
      · exact (expand_inRange (handleClient_inRange hdrivers hharmless)).bind fun _ => trivial
      · exact ((handleClient_noPanic hharmless.counts).expand critical_noPanic).bind fun _ => trivial
    · -- the promise is void from here on
      refine ((serve_concerns src).follows_invariant (I := fun γ => src ∈ γ) ?_
        (fun γ a x _ h => List.mem_append_left _ h) ?_ hsrc).mono fun _ _ _ => trivial
      · exact fun γ a _ hmem hall => absurd (hall src hmem) hharmless
      · exact fun γ hmem _ hall => hharmless (hall src hmem)

theorem stop_inRange (hdrivers : DriversExist config) :
    (emergencyStop config).run.discard.All (InRange config.drivers.length) := by
  have hall : (Procedure.emergencyStop.code config).All (InRange config.drivers.length) :=
    Procedure.code_all (fun _ => trivial) .emergencyStop (fun _ _ => trivial)
      (hdrivers _ (by simp [Procedure.actions]))
  exact hall.discard

end Enduring

/-! ## 4. Runs -/

section Runs

variable {F : Type} [F64 F] {config : Configuration} {profile : Profile}
  {fromSlice : List UInt8 → Option Command} {turns : Nat} {lines : List Bool}
  {t : List (Event ServerOp.Ans)} {s : Sys ServerOp ServerOp.Ans Controller} {i : Nat}

/-- Every client that has been accepted is harmless. -/
def ClientsHarmless (config : Configuration) (profile : Profile)
    (fromSlice : List UInt8 → Option Command) (t : List (Event ServerOp.Ans)) : Prop :=
  ∀ e ∈ t, ∀ src, e.call = ⟨.act .accept, some (.ok src)⟩ → Harmless config profile fromSlice src

theorem ClientsHarmless.initial {t₁ t₂ : List (Event ServerOp.Ans)}
    (h : ClientsHarmless config profile fromSlice (t₁ ++ t₂)) :
    ClientsHarmless config profile fromSlice t₁ :=
  fun e he => h e (List.mem_append_left _ he)

/-- What every thread promises. -/
theorem enduring_of_run (hsane : config.Sane)
    (hrun : Run (server F config profile fromSlice) (serverOf config profile fromSlice turns lines)
      t s) (hclients : ClientsHarmless config profile fromSlice t)
    {q : Prog ServerOp ServerOp.Ans Unit} (hq : s.threads[i]? = some q) :
    ∃ p, p.Obeys ((enduring config profile fromSlice).through serverAct) ∧
      Prog.Steps p (history i t) q := by
  obtain ⟨p, horigin, hsteps⟩ := origin_of_run hrun hq
  refine ⟨p, ?_, hsteps⟩
  cases horigin with
  | closure first => exact (closure_enduring hsane.drivers).discard
  | command cmd t₁ e started op =>
    obtain ⟨e', he', src, haccept, hcmd⟩ := sent_of_spawn hrun started.mem op
    have hharmless := (hclients e' he' src haccept).commands cmd hcmd
    have hall : (commandThread config cmd).All (InRange config.drivers.length) :=
      (handleCommand_inRange_of_harmless hsane.drivers hharmless).bind
        fun _ => ⟨trivial, fun _ => trivial⟩
    exact ofActs_obeys (obeys_enduring (expand_inRange hall) (commandRoutine_noPanic cmd))
  | stop t₁ e started op =>
    exact ofActs_obeys (obeys_enduring (expand_inRange (stop_inRange hsane.drivers))
      stopRoutine_noPanic)
  | listener thread t₁ e started op mem =>
    have hall : (thread.program F config profile fromSlice).All (Act.InRange config.drivers.length) := by
      refine (listener_unconcerned F mem).mono ?_
      rintro a (ha | ⟨rfl, -⟩)
      · exact inRange_of_unconcerned ha
      · trivial
    exact ofActs_obeys (obeys_enduring hall (listener_noPanic F hsane mem))

/-- The clients a thread has accepted are harmless. -/
theorem harmless_of_clients (hclients : ClientsHarmless config profile fromSlice t) (i : Nat) :
    ∀ src ∈ (enduring config profile fromSlice).after [] (actsOf i t),
      Harmless config profile fromSlice src := by
  intro src hsrc
  rw [clients_after (fun _ _ => rfl), List.nil_append] at hsrc
  obtain ⟨e, he, haccept⟩ := mem_clients hsrc
  exact hclients e he src haccept

/-- **No operation panics.** -/
theorem answered_of_run (hsane : config.Sane) (hlines : lines.length = config.drivers.length)
    (hrun : Run (server F config profile fromSlice) (serverOf config profile fromSlice turns lines)
      t s) (hclients : ClientsHarmless config profile fromSlice t) {e : Event ServerOp.Ans}
    (he : e ∈ t) : e.call.ans ≠ none := by
  intro hnone
  rcases panic_of_run hrun he hnone with
    ⟨group, hgroup, sensor, hsensor, hchannel | hwidth, -⟩ | ⟨driverId, value, hop, hle⟩
  · exact absurd (hsane.accepted.sensor_valid hgroup hsensor).2 (UInt8.not_lt.mpr hchannel)
  · exact (hsane.monitorable.groups group hgroup).width sensor hsensor hwidth
  · obtain ⟨t₁, t₂, rfl⟩ := List.append_of_mem he
    obtain ⟨m, m', hmoment⟩ := hrun.moment
    obtain ⟨k, hk, -⟩ := hmoment.step.self
    obtain ⟨tid, ⟨o, x⟩⟩ := e
    subst hop
    obtain ⟨p, hobeys, hsteps⟩ := enduring_of_run hsane hmoment.before hclients.initial hk
    have hrange : driverId.toNat < config.drivers.length :=
      permits_of_steps (hobeys []) hsteps (harmless_of_clients hclients.initial tid)
    omega

/-- No thread has panicked, and no lock is poisoned. -/
theorem unfailing_of_run (hsane : config.Sane) (hlines : lines.length = config.drivers.length)
    (hrun : Run (server F config profile fromSlice) (serverOf config profile fromSlice turns lines)
      t s) (hclients : ClientsHarmless config profile fromSlice t) :
    (∀ q ∈ s.threads, q ≠ .panic) ∧ s.shared.Sound := by
  have hanswered : ∀ e ∈ t, e.call.ans ≠ none :=
    fun e he => answered_of_run hsane hlines hrun hclients he
  constructor
  · rintro q hq rfl
    obtain ⟨i, hi⟩ := List.getElem?_of_mem hq
    obtain ⟨p, hobeys, hsteps⟩ := enduring_of_run hsane hrun hclients hi
    rcases (hobeys []).steps hsteps (fun _ _ _ _ => trivial) with ⟨-, c, hc, hnone⟩ | hfollows
    · obtain ⟨e, he, -, rfl⟩ := mem_history.mp hc
      exact hanswered e he hnone
    · rw [Protocol.through_after] at hfollows
      exact hfollows (harmless_of_clients hclients i)
  · intro l
    rw [← Bool.not_eq_true, poisoned_of_run hrun]
    rintro ⟨e, he, a, x, hcall, ⟨guards, hunwind, -⟩ | ⟨-, hnone, -⟩⟩
    · change a = .unwind guards at hunwind
      subst hunwind
      have hans := hanswered e he
      rw [hcall] at hans
      cases x with
      | none => exact hans rfl
      | some x => exact x.elim
    · have hans := hanswered e he
      rw [hcall] at hans
      exact hans hnone

end Runs

/-! ## 5. The host -/

/-- The ADC of every sensor of an accepted configuration is there, if that of every chip select is. -/
theorem adc_exists {config : Configuration} (haccepted : config.Accepted) {adcs : Nat}
    (hadcs : config.adcCs.length ≤ adcs) {group : SensorGroup} (hgroup : group ∈ config.sensorGroups)
    {sensor : Sensor} (hsensor : sensor ∈ group.sensors) : ¬ adcs ≤ sensor.adc.toNat :=
  Nat.not_le.mpr (lt_of_lt_of_le (haccepted.sensor_valid hgroup hsensor).1 hadcs)

/-- **No thread ever panics**, and no lock is ever poisoned: in any run of the server on a host that
provides what it needs, with a sane configuration, an ADC for each chip select and a line for each
driver, as long as the clients that have been accepted are harmless. -/
theorem never_panics (F : Type) [F64 F] (config : Configuration) (profile : Profile)
    (fromSlice : List UInt8 → Option Command) (turns adcs : Nat) (lines : List Bool)
    (hsane : config.Sane) (hadcs : config.adcCs.length ≤ adcs)
    (hlines : lines.length = config.drivers.length)
    (t : List (Event HostOp.Ans)) (s : Sys HostOp HostOp.Ans Controller)
    (hrun : Run (hosted F config profile fromSlice adcs)
      (hostedOf config profile fromSlice turns lines) t s) (hprovided : Provided t)
    (hclients : ClientsHarmless config profile fromSlice (called t)) :
    (∀ e ∈ t, e.call.ans ≠ none) ∧ (∀ q ∈ s.threads, q ≠ .panic) ∧ s.shared.Sound := by
  obtain ⟨n, hserver, hhosts⟩ := server_of_hosted hrun hprovided
  obtain ⟨hthreads, hsound⟩ := unfailing_of_run hsane hlines hserver hclients
  refine ⟨?_, ?_, ?_⟩
  · rintro ⟨tid, ⟨op, x⟩⟩ he hnone
    obtain rfl : x = none := hnone
    cases op with
    | ask guards o =>
      obtain ⟨group, hgroup, sensor, hsensor, hmissing, -⟩ :=
        missing_of_refused hrun hprovided he rfl
      exact adc_exists hsane.accepted hadcs hgroup hsensor hmissing
    | call o => exact answered_of_run hsane hlines hserver hclients (mem_called.mpr he) rfl
  · rintro q hq rfl
    obtain ⟨i, hi⟩ := List.getElem?_of_mem hq
    obtain ⟨p, hp, hasks⟩ := hhosts.threads _ _ hi
    rcases hasks.of_panic with rfl | ⟨o, k, rfl, hpast⟩
    · exact hthreads _ (List.mem_of_getElem? hp) rfl
    · obtain ⟨group, hgroup, sensor, hsensor, hmissing, -⟩ := missing_of_pending hserver hp hpast
      exact adc_exists hsane.accepted hadcs hgroup hsensor hmissing
  · rw [hhosts.shared]
    exact hsound

/-- A client asks for a stop, and leaves; the threads of the stand run to their ends, and all of them
return. -/
theorem stopped_stand_returns : ∃ t s,
    Run (hosted ℚ (.oneDriver [] [.actuate 0 true]) .release (fun _ => some .emergencyStop) 0)
      (hostedOf (.oneDriver [] [.actuate 0 true]) .release (fun _ => some .emergencyStop) 1 [false])
      t s ∧ s.threads.length = 4 ∧ ∀ q ∈ s.threads, q = .ret () := by
  obtain ⟨t, s, hrun, hp⟩ := exists_guardedRun
    (M := hosted ℚ (.oneDriver [] [.actuate 0 true]) .release (fun _ => some .emergencyStop) 0)
    (C := fun _ _ e => provides e && e.called.all fun e =>
      ((serverAct e.call).bind clientOf).all fun src => decide
        (Harmless (.oneDriver [] [.actuate 0 true]) .release (fun _ => some .emergencyStop) src))
    (G := fun _ _ e => provides e = true ∧ ∀ e', e.called = some e' →
      ∀ src, e'.call = ⟨.act .accept, some (.ok src)⟩ →
        Harmless (.oneDriver [] [.actuate 0 true]) .release (fun _ => some .emergencyStop) src)
    (fun _ _ e h => ⟨(Bool.and_eq_true_iff.mp h).1, fun e' he' src haccept => by
      simpa [he', haccept, serverAct, clientOf] using (Bool.and_eq_true_iff.mp h).2⟩)
    -- each operation is asked for and performed
    (List.replicate 86 (0, { HostWorld.fine with incoming := .ok (.ofBytes [123, 125]) }) ++
      List.replicate 34 (1, HostWorld.fine) ++ List.replicate 22 (2, HostWorld.fine) ++
      List.replicate 46 (3, HostWorld.fine))
    (s := hostedOf (.oneDriver [] [.actuate 0 true]) .release (fun _ => some .emergencyStop) 1
      [false])
    (P := fun _ s => decide (s.threads.length = 4) && s.threads.all fun q => q.pending.isNone)
    (by decide +kernel)
  simp only [Bool.and_eq_true, decide_eq_true_eq, List.all_eq_true, Option.isNone_iff_eq_none,
    Prog.pending_eq_none] at hp
  have hsane : (Configuration.oneDriver [] [.actuate 0 true]).Sane :=
    ⟨rfl, ⟨by decide, by simp [Configuration.oneDriver]⟩,
      by simp [DriversExist, Configuration.oneDriver], by decide⟩
  have hclients : ClientsHarmless (.oneDriver [] [.actuate 0 true]) .release
      (fun _ => some .emergencyStop) (called t) := by
    intro e he
    obtain ⟨e', he', hcalled⟩ := List.mem_filterMap.mp he
    exact hrun.forall_mem (fun _ _ _ _ h _ => h.2) e' he' e hcalled
  obtain ⟨-, hpanic, -⟩ := never_panics ℚ (.oneDriver [] [.actuate 0 true]) .release
    (fun _ => some .emergencyStop) 1 0 [false] hsane (Nat.le_refl 0) rfl t s hrun.run
    (provided_of_guardedRun hrun fun _ _ _ h => h.1) hclients
  refine ⟨t, s, hrun.run, hp.1, fun q hq => ?_⟩
  have hfinished := hp.2 q hq
  have hne := hpanic q hq
  cases q with
  | ret u => rfl
  | panic => exact absurd rfl hne
  | op o k => exact hfinished.elim

end Slonk
