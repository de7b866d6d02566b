/-
# Which locks a thread holds where

Every thread of the controller, whatever it is answered, takes a lock only under the locks the source
nests it in: `Nests`, and for one place `NestsStatus`.  That place is the `send` of
`driver_status_listen`, which it reaches only when its log writer has not failed; the answers `A`
that are allowed enter the theorems there and nowhere else.

The same pass over the programs says which operations each kind of thread performs at all
(`Thread.Performs`).  The proofs follow the programs: one rule for each combinator, one lemma for
each function.  `Thread.program_keeps` is what the rest of the development uses.
-/
import Slonk.Listeners

namespace Slonk

open Concurrency

variable {R : Lock → Lock → Prop} {P : Act → Prop} {A : ∀ a, Act.Ans a → Prop}
  {held : List (Lock × Mode)} {ε α β : Type}

/-! ## 1. Operations and their locks -/

/-- The operations that every thread may perform. -/
def Act.Common : Act → Prop
  | acquire _ _ | release _ | unwind _ | status => True
  | op .now | op (.sleep _) | op (.userLog _ _) => True
  | _ => False

/-- Those that a thread that reads no sensor may perform. -/
def Act.Ordinary : Act → Prop
  | acquire (.adc _) _ => False
  | a => a.Common

theorem Act.Ordinary.common {a : Act} (h : a.Ordinary) : a.Common := by
  unfold Ordinary at h
  split at h
  · exact h.elim
  · exact h

/-- The operations that neither take nor give back a lock. -/
def Act.Plain : Act → Prop
  | acquire _ _ | release _ => False
  | _ => True

theorem keeps_op {a : Act} (hP : P a) (h : a.Plain) {k : a.Ans → Prog Act Act.Ans α}
    (hk : ∀ x, A a x → Locks.Keeps R P A held (k x)) : Locks.Keeps R P A held (.op a k) := by
  cases a with
  | acquire l mode => exact h.elim
  | release l => exact h.elim
  | _ => exact .op hP rfl rfl hk

theorem keeps_call {a : Act} (hP : P a) (h : a.Plain) :
    Locks.Keeps R P A held (Fallible.call a : Routine ε a.Ans).run :=
  keeps_op hP h fun _ _ => .ret _

theorem keeps_attempt {a : Act} (hP : P a) (h : a.Plain) (f : a.Ans → Except ε α) :
    Locks.Keeps R P A held (Fallible.attempt a f).run :=
  keeps_op hP h fun _ _ => .ret _

theorem keeps_perform {o : Op} (hP : P (.op o)) : Locks.Keeps R P A held (perform o) :=
  keeps_op hP (by exact trivial) fun _ _ => .ret _

/-- With no lock held, any lock may be taken. -/
theorem none_held {Q : Lock × Mode → Prop} : ∀ y ∈ ([] : List (Lock × Mode)), Q y :=
  fun _ h => absurd h List.not_mem_nil

/-- With one lock held, what may be nested in it may be taken. -/
theorem one_held {l l' : Lock} {mode : Mode} (h : R l l') : ∀ y ∈ [(l, mode)], R y.1 l' := by
  intro y hy
  obtain rfl := List.mem_singleton.mp hy
  exact h

section Ordinary

variable (hc : ∀ a, Act.Ordinary a → P a)

include hc

theorem writeLog_all (guards : List Lock) (level : LogLevel) (message : UserMessage) :
    (writeLog guards level message).All P := by
  refine .guarded (hc _ trivial) (fun poisoned => ?_) (hc _ trivial)
  cases poisoned with
  | true => exact ⟨hc _ trivial, fun x => nomatch x⟩
  | false => exact ⟨hc _ trivial, fun _ => trivial⟩

/-- An operation with its locks performs nothing else. -/
theorem critical_all {o : Op} (hP : P (.op o)) : (critical o).All P := by
  have hperform : (perform o).All P := ⟨hP, fun _ => trivial⟩
  cases o with
  | moveTo newState => exact .guarded (hc _ trivial) (fun _ => hperform) (hc _ trivial)
  | write driverId value => exact .guarded (hc _ trivial) (fun _ => hperform) (hc _ trivial)
  | sleep duration => exact hperform
  | now => exact hperform
  | spawn cmd => exact hperform
  | send message =>
    refine .guarded (hc _ trivial) (fun poisoned => ?_) (hc _ trivial)
    cases poisoned with
    | true => trivial
    | false => exact .guarded (hc _ trivial) (fun _ => hperform) (hc _ trivial)
  | logCommand time tag cmd =>
    refine ⟨hc _ trivial, fun _ => hperform.bind fun r => ?_⟩
    match r with
    | .ok () => exact ⟨hc _ trivial, fun _ => trivial⟩
    | .error .poisoned => exact ⟨hc _ trivial, fun _ => trivial⟩
    | .error .io => trivial
  | userLog level message =>
    simp only [critical]
    split
    · exact (writeLog_all hc _ _ _).bind fun _ => ⟨hc _ trivial, fun _ => trivial⟩
    · exact writeLog_all hc _ _ _

end Ordinary

section Common

variable (hc : ∀ a, Act.Common a → P a)

include hc

theorem keeps_unwind (guards : List Lock) :
    Locks.Keeps R P A held (unwind guards : Routine ε α).run :=
  keeps_op (a := .unwind guards) (hc _ trivial) trivial fun a => nomatch a

/-- A lock taken for a block. -/
theorem keeps_guarded {l : Lock} {mode : Mode} {p : Bool → Prog Act Act.Ans α}
    (hR : ∀ y ∈ held, R y.1 l)
    (hp : ∀ poisoned, Locks.Keeps R P A ((l, mode) :: held) (p poisoned)) :
    Locks.Keeps R P A held (Prog.guarded (.acquire l mode) p (.release l)) :=
  .guarded (hc _ trivial) (hc _ trivial) rfl rfl rfl hR fun a _ => hp a

theorem keeps_writeLog (guards : List Lock) (level : LogLevel) (message : UserMessage)
    (hR : ∀ y ∈ held, R y.1 .userLog) :
    Locks.Keeps R P A held (writeLog guards level message) := by
  refine keeps_guarded hc hR fun poisoned => ?_
  cases poisoned with
  | true => exact keeps_op (a := .unwind guards) (hc _ trivial) trivial fun a => nomatch a
  | false => exact keeps_perform (hc _ trivial)

theorem keeps_send {message : Message} (hP : P (.op (.send message)))
    (hchannel : ∀ y ∈ held, R y.1 .dashChannel) (hlog : ∀ y ∈ held, R y.1 .messageLog)
    (hR : R .dashChannel .messageLog) : Locks.Keeps R P A held (critical (.send message)) := by
  refine keeps_guarded hc hchannel fun poisoned => ?_
  cases poisoned with
  | true => exact .ret _
  | false =>
    refine keeps_guarded hc ?_ fun _ => keeps_perform hP
    rintro y hy
    rcases List.mem_cons.mp hy with rfl | hy
    · exact hR
    · exact hlog y hy

theorem keeps_note (guards : List Lock) (level : LogLevel) (message : UserMessage)
    (hR : ∀ y ∈ held, R y.1 .userLog) :
    Locks.Keeps R P A held (Routine.note guards level message).run :=
  (keeps_writeLog hc guards level message hR).bind fun _ => .ret _

theorem keeps_log (guards : List Lock) (level : LogLevel) (message : UserMessage)
    (hR : ∀ y ∈ held, R y.1 .userLog) :
    Locks.Keeps R P A held (Routine.log guards level message).run :=
  (keeps_writeLog hc guards level message hR).bind fun _ => .ret _

theorem keeps_status : Locks.Keeps R P A [] Routine.status.run :=
  keeps_guarded hc none_held fun _ => keeps_attempt (a := .status) (hc _ trivial) trivial _

theorem keeps_now : Locks.Keeps R P A held Routine.now.run :=
  keeps_call (hc _ trivial) (by exact trivial)

theorem keeps_sleep (duration : Duration) : Locks.Keeps R P A held (Routine.sleep duration).run :=
  keeps_call (hc _ trivial) (by exact trivial)

/-- A call of `has_target`, or of `set_channel`. -/
theorem keeps_channel {a : Act} (hP : P a) (h : a.Plain) (mode : Mode)
    (f : a.Ans → Except RunError α) :
    Locks.Keeps R P A [] (Fallible.guarded (.acquire .dashChannel mode)
      (fun _ => .attempt a f) (.release .dashChannel) : Routine RunError α).run :=
  keeps_guarded hc none_held fun _ => keeps_attempt hP h f

/-! ## 2. Commands -/

/-- The operations that give back the locks they take. -/
def Op.Balanced : Op → Prop
  | .logCommand _ _ _ => False
  | .userLog _ message => message.underCmdLog = false
  | _ => True

omit hc in
/-- `?` in a program of `Execution.lean`. -/
theorem keeps_then {p : Proc ε α} {f : α → Proc ε β}
    (hp : Locks.Keeps R P A [] (p.run.expand critical))
    (hf : ∀ a, Locks.Keeps R P A [] ((f a).run.expand critical)) :
    Locks.Keeps R P A [] ((p >>= f).run.expand critical) := by
  rw [run_bind, Prog.expand_bind]
  refine hp.bind ?_
  rintro (e | a)
  · exact .ret _
  · exact hf a

variable (hR : ∀ l' l, Nests l' l → R l' l)

include hR

theorem keeps_critical {o : Op} (h : o.Balanced) (hP : P (.op o)) :
    Locks.Keeps R P A [] (critical o) := by
  cases o with
  | moveTo newState => exact keeps_guarded hc none_held fun _ => keeps_perform hP
  | sleep duration => exact keeps_perform hP
  | now => exact keeps_perform hP
  | write driverId value => exact keeps_guarded hc none_held fun _ => keeps_perform hP
  | logCommand time tag cmd => exact h.elim
  | userLog level message =>
    have hm : message.underCmdLog = false := h
    simp only [critical, hm, Bool.false_eq_true, if_false]
    exact keeps_writeLog hc _ _ _ none_held
  | send message => exact keeps_send hc hP none_held none_held (hR _ _ .send)
  | spawn cmd => exact keeps_perform hP

/-- A program of such operations. -/
theorem keeps_expand {p : Prog Op Op.Ans α} (hp : p.All fun o => o.Balanced ∧ P (.op o)) :
    Locks.Keeps R P A [] (p.expand critical) :=
  hp.follows_expand trivial fun _ ho => keeps_critical hc hR ho.1 ho.2

/-- **The command log.**  When its writer fails, the warning is given with the guard still held, and
the guard goes after it. -/
theorem keeps_logCommand {time : Nat} {tag : LogTag} {cmd : Command}
    (hP : P (.op (.logCommand time tag cmd))) :
    Locks.Keeps R P A [] ((logCommand time tag cmd).run.expand critical) := by
  have hwarn : ∀ message : UserMessage, message.underCmdLog = true →
      ((critical (.userLog .warn message)).bind fun _ => .ret (.ok ())).Follows (Locks.nesting R P)
        A [(.cmdLog, .exclusive)] fun (_ : Except ExecutionError Unit) held' => held' = [] := by
    intro message hm
    simp only [critical, hm, if_true]
    refine Prog.Follows.bind (Prog.Follows.bind (Prog.Follows.mono
      (keeps_writeLog hc [.cmdLog] .warn message (one_held (hR _ _ .commandWarning))) ?_))
    rintro r _ rfl
    exact ⟨⟨hc _ trivial, nofun⟩, fun _ _ => rfl⟩
  refine ⟨⟨hc _ trivial, fun x _ => none_held⟩, fun poisoned _ => ⟨⟨hP, nofun⟩, fun r _ => ?_⟩⟩
  match r with
  | .ok () => exact ⟨⟨hc _ trivial, nofun⟩, fun _ _ => rfl⟩
  | .error .poisoned => exact ⟨⟨hc _ trivial, nofun⟩, fun _ _ => rfl⟩
  | .error .io =>
    cases tag with
    | request => exact hwarn (.unableToLog cmd) rfl
    | finish => exact hwarn (.unableToLogCompletion cmd) rfl

theorem keeps_write {driverId : UInt8} {value : Bool} (hP : P (.op (.write driverId value))) :
    Locks.Keeps R P A [] ((write driverId value).run.expand critical) :=
  keeps_expand hc hR (p := (write driverId value).run)
    ⟨⟨trivial, hP⟩, fun a => by cases a <;> trivial⟩

theorem keeps_procedure (config : Configuration) (procedure : Procedure)
    (hmove : ∀ newState, P (.op (.moveTo newState)))
    (hwrite : ∀ driverId value, P (.op (.write driverId value))) :
    Locks.Keeps R P A [] ((procedure.code config).expand critical) :=
  keeps_expand hc hR (Procedure.code_all (fun _ => ⟨trivial, hc _ trivial⟩) procedure
    (fun _ _ => ⟨trivial, hmove _⟩) fun _ _ _ => ⟨trivial, hwrite _ _⟩)

theorem keeps_actuate (config : Configuration) {driverId : UInt8} {value : Bool}
    (hwrite : P (.op (.write driverId value))) :
    Locks.Keeps R P A [] ((execute config (.actuate driverId value)).run.expand critical) := by
  by_cases h : driverId.toNat > config.drivers.length
  · simp only [execute, if_pos h]
    exact .ret _
  · simp only [execute, if_neg h]
    exact keeps_write hc hR hwrite

theorem keeps_handleCommand (config : Configuration) {cmd : Command}
    (hlog : ∀ time tag, P (.op (.logCommand time tag cmd)))
    (hexec : Locks.Keeps R P A [] ((execute config cmd).run.expand critical)) :
    Locks.Keeps R P A [] ((handleCommand config cmd).run.expand critical) := by
  have hnow : Locks.Keeps R P A [] (now.run.expand critical) :=
    keeps_expand hc hR (p := now.run) ⟨⟨trivial, hc _ trivial⟩, fun _ => trivial⟩
  have hinfo : Locks.Keeps R P A [] ((info (.executing cmd)).run.expand critical) :=
    keeps_expand hc hR (p := (info _).run) ⟨⟨rfl, hc _ trivial⟩, fun _ => trivial⟩
  exact keeps_then hnow fun _ => keeps_then hinfo fun _ =>
    keeps_then (keeps_logCommand hc hR (hlog _ _)) fun _ => keeps_then hexec fun _ =>
    keeps_then hnow fun _ => keeps_logCommand hc hR (hlog _ _)

theorem keeps_commandRoutine (config : Configuration) {cmd : Command}
    (hlog : ∀ time tag, P (.op (.logCommand time tag cmd)))
    (hmove : ∀ newState, P (.op (.moveTo newState)))
    (hwrite : ∀ driverId value, P (.op (.write driverId value))) :
    Locks.Keeps R P A [] (commandRoutine config cmd) := by
  have hexec : Locks.Keeps R P A [] ((execute config cmd).run.expand critical) := by
    cases cmd with
    | actuate driverId value => exact keeps_actuate hc hR config (hwrite _ _)
    | ignition => exact keeps_procedure hc hR config .ignition hmove hwrite
    | emergencyStop => exact keeps_procedure hc hR config .emergencyStop hmove hwrite
  unfold commandRoutine commandThread
  rw [Prog.expand_bind]
  exact (keeps_handleCommand hc hR config hlog hexec).bind fun _ =>
    keeps_expand hc hR (p := .op (.userLog .debug _) fun _ => .ret ())
      ⟨⟨rfl, hc _ trivial⟩, fun _ => trivial⟩

theorem keeps_stopRoutine (config : Configuration)
    (hmove : ∀ newState, P (.op (.moveTo newState)))
    (hwrite : ∀ driverId value, P (.op (.write driverId value))) :
    Locks.Keeps R P A [] (stopRoutine config) := by
  unfold stopRoutine Prog.discard
  rw [Prog.expand_bind]
  exact (keeps_procedure hc hR config .emergencyStop hmove hwrite).bind fun _ => .ret _

/-! ## 3. The accept thread -/

section Accepting

variable (config : Configuration) (profile : Profile) (fromSlice : List UInt8 → Option Command)

/-- What the accept thread performs, besides what every thread may. -/
def Act.Accepts : Act → Prop
  | op (.send message) => message = .config config
  | op (.write _ _) | op (.logCommand _ _ _) | op (.spawn _) => True
  | setChannel | accept | peerAddr | tryClone => True
  | _ => False

variable (hP : ∀ a, Act.Accepts config a → P a)

omit hR in
theorem keeps_logUser (hR : ∀ l' l, Nests l' l → R l' l) (level : LogLevel) {message : UserMessage}
    (h : message.underCmdLog = false) :
    Locks.Keeps R P A [] ((logUser level message).run.expand critical) :=
  keeps_expand hc hR (p := (logUser level message).run)
    ⟨⟨h, hc _ trivial⟩, fun a => by cases a <;> trivial⟩

include hP

theorem keeps_handleMessage (r : Except IncomingError Command) :
    Locks.Keeps R P A [] ((handleMessage config r).run.expand critical) := by
  have hlog : ∀ (level : LogLevel) (message : UserMessage) (b : Bool),
      message.underCmdLog = false → Locks.Keeps R P A [] ((do
        logUser level message
        pure b : Proc ControllerError Bool).run.expand critical) := fun level message b h =>
    keeps_then (keeps_logUser hc hR level h) fun _ => .ret _
  have hspawn : ∀ cmd, Locks.Keeps R P A [] ((do
      Slonk.spawn cmd
      logUser .debug (.text "Finished executing command.")
      pure true : Proc ControllerError Bool).run.expand critical) := fun cmd =>
    keeps_then (keeps_expand hc hR (p := (Slonk.spawn cmd).run)
      ⟨⟨trivial, hP _ trivial⟩, fun _ => trivial⟩) fun _ => hlog _ _ _ rfl
  match r with
  | .error (.malformed message) => exact hlog _ _ _ rfl
  | .error (.io .unexpectedEof) => exact hlog _ _ _ rfl
  | .error (.io .connectionReset) => exact hlog _ _ _ rfl
  | .error (.io .interrupted) => exact hlog _ _ _ rfl
  | .error (.io (.other d)) => exact hlog _ _ _ rfl
  | .ok .ignition => exact hspawn _
  | .ok .emergencyStop => exact hspawn _
  | .ok (.actuate driverId value) =>
    refine keeps_then (keeps_then (p := ExceptT.lift (handleCommand config _).run) ?_ ?_)
      fun _ => .ret _
    · have hlift : (ExceptT.lift (handleCommand config (.actuate driverId value)).run :
          Proc ControllerError _).run.expand critical
          = ((handleCommand config (.actuate driverId value)).run.expand critical).bind
            fun r => .ret (.ok r) := Prog.expand_bind critical _ _
      rw [hlift]
      exact (keeps_handleCommand hc hR config (fun _ _ => hP _ trivial)
        (keeps_actuate hc hR config (hP _ trivial))).bind fun _ => .ret _
    · rintro (e | u)
      · exact keeps_logUser hc hR _ rfl
      · exact keeps_logUser hc hR _ rfl

theorem keeps_handleClientLoop : ∀ (fuel : Nat) (src : Source),
    Locks.Keeps R P A []
      ((handleClientLoop config profile fromSlice fuel src).run.expand critical)
  | 0, _ => .panic
  | fuel + 1, src => by
    unfold handleClientLoop
    obtain ⟨_ | r, src'⟩ := Command.parse profile fromSlice src
    case none => exact .panic
    case some =>
      refine keeps_then (keeps_handleMessage hc hR config hP r) ?_
      rintro (_ | _)
      · exact .ret _
      · exact keeps_handleClientLoop fuel src'

theorem keeps_serve (src : Source) :
    Locks.Keeps R P A [] (serve config profile fromSlice src).run := by
  refine Locking.Keeps.bind (p := (handleClient config profile fromSlice src).run.expand critical)
    ?_ fun _ => .ret _
  refine keeps_then ?_ fun _ => keeps_then (keeps_logUser hc hR _ rfl) fun _ =>
    keeps_handleClientLoop hc hR config profile fromSlice hP _ src
  exact keeps_expand hc hR (p := (Slonk.send (.config config)).run)
    ⟨⟨trivial, hP _ rfl⟩, fun a => by cases a <;> trivial⟩

theorem keeps_accepting (turns : Nat) :
    Locks.Keeps R P A [] (accepting config profile fromSlice turns).run := by
  have hlog : ∀ level message, Locks.Keeps R P A [] (Routine.log [] level message).run :=
    fun level message => keeps_log hc [] level message none_held
  refine Fallible.keeps_loop (fun _ => ?_) turns ()
  refine Fallible.keeps_bind (keeps_call (hP _ trivial) (by exact trivial)) ?_
  rintro (e | src)
  · exact Fallible.keeps_bind (hlog _ _) fun _ => .ret _
  · refine Fallible.keeps_bind (keeps_attempt (a := .peerAddr) (hP _ trivial) trivial _) fun address => ?_
    refine Fallible.keeps_bind (hlog _ _) fun _ => ?_
    refine Fallible.keeps_bind (keeps_attempt (a := .tryClone) (hP _ trivial) trivial _) fun _ => ?_
    refine Fallible.keeps_bind ?_ fun _ => .ret _
    refine Fallible.keeps_bind
      (keeps_channel hc (a := .setChannel) (hP _ trivial) trivial _ _) fun _ => ?_
    exact Fallible.keeps_bind (hlog _ _) fun _ => keeps_serve hc hR config profile fromSlice hP src

end Accepting

/-! ## 4. The listeners -/

section SensorListen

variable {F : Type} [F64 F] (config : Configuration) (profile : Profile) (group : SensorGroup)
  (groupId : UInt8) (logFiles : List LogFile)

/-- What a sensor thread performs, besides what every thread may. -/
def Act.Senses : Act → Prop
  | op (.send message) => ∃ readings, message = .sensorValue groupId readings
  | hasTarget | readAdc _ _ | spawnStop => True
  | writeSensorLog file _ => file ∈ logFiles
  | _ => False

variable (hP : ∀ a, Act.Senses groupId logFiles a → P a)

include hP

theorem keeps_sampleLocked (idx : Fin group.size) (locals : Locals F group.size) :
    Locks.Keeps R P A [(.adc (group.sensor idx).adc, .exclusive)]
      (sampleLocked profile group idx locals).run := by
  have hwarn : ∀ y ∈ [(Lock.adc (group.sensor idx).adc, Mode.exclusive)], R y.1 .userLog :=
    one_held (hR _ _ (.sensorWarning _))
  have hread : Locks.Keeps R P A [(.adc (group.sensor idx).adc, .exclusive)]
      (readAdc (group.sensor idx)).run := by
    unfold readAdc
    split
    · exact keeps_unwind hc _
    · refine keeps_guarded hc (one_held (hR _ _ (.transfer _))) fun poisoned => ?_
      cases poisoned with
      | true => exact .ret _
      | false => exact keeps_call (hP _ trivial) (by exact trivial)
  refine Fallible.keeps_bind hread ?_
  rintro (e | reading)
  · exact Fallible.keeps_bind (keeps_note hc _ _ _ hwarn) fun _ => .ret _
  · refine Fallible.keeps_bind (keeps_now hc) fun readTime => ?_
    dsimp only
    split
    · exact keeps_unwind hc _
    · refine Fallible.keeps_bind ?_ fun _ => .ret _
      unfold checkRange
      split
      · exact Fallible.keeps_bind (keeps_note hc _ _ _ hwarn) fun _ =>
          keeps_call (hP _ trivial) (by exact trivial)
      · exact .ret _

theorem keeps_sample (locals : Locals F group.size) (idx : Fin group.size) :
    Locks.Keeps R P A [] (sample profile group locals idx).run := by
  refine Fallible.keeps_bind (keeps_guarded hc none_held fun poisoned => ?_) ?_
  · cases poisoned with
    | true => exact .ret _
    | false =>
      exact Fallible.keeps_bind
        (keeps_sampleLocked hc hR profile group groupId logFiles hP idx locals) fun _ => .ret _
  · rintro (_ | locals)
    · exact Fallible.keeps_bind (keeps_note hc _ _ _ none_held) fun _ => .ret _
    · exact .ret _

omit [F64 F] in
theorem keeps_transmit (period : Duration) (locals : Locals F group.size) :
    Locks.Keeps R P A [] (transmit group groupId period locals).run := by
  have hsend : Locks.Keeps R P A []
      (Routine.send (.sensorValue groupId locals.readings)).run :=
    (keeps_send hc (hP _ ⟨_, rfl⟩) none_held none_held (hR _ _ .send)).bind fun _ => .ret _
  have hdone : Locks.Keeps R P A [] (do
      let time ← Routine.now
      pure { locals with
        lastTransmissionTime := time, transmissionReadings := Vector.replicate _ none } :
      Routine RunError (Locals F group.size)).run :=
    Fallible.keeps_bind (keeps_now hc) fun _ => .ret _
  refine Fallible.keeps_bind (keeps_now hc) fun time => ?_
  dsimp only
  split
  · refine Fallible.keeps_bind
      (keeps_channel hc (a := .hasTarget) (hP _ trivial) trivial _ _) ?_
    rintro (_ | _)
    · exact hdone
    · exact Fallible.keeps_bind hsend fun _ => hdone
  · exact .ret _

omit hR in
theorem keeps_flush (locals : Locals F group.size) (idx : Fin group.size) :
    Locks.Keeps R P A [] (flush config group logFiles locals idx).run := by
  unfold flush
  dsimp only
  split
  · split
    · exact .panic
    · rename_i file hfile
      refine Fallible.keeps_bind
        (keeps_call (hP _ (List.mem_of_getElem? hfile)) (by exact trivial)) ?_
      rintro (_ | _)
      · exact Fallible.keeps_bind (keeps_note hc _ _ _ none_held) fun _ => .ret _
      · exact .ret _
  · exact .ret _

theorem keeps_sensorListen (turns : Nat) :
    Locks.Keeps R P A [] (sensorListen F config profile groupId logFiles turns).run := by
  unfold sensorListen
  split
  · exact .panic
  · refine Fallible.keeps_bind (keeps_now hc) fun time => ?_
    split
    · exact .panic
    · refine Fallible.keeps_bind (Fallible.keeps_loop (fun locals => ?_) _ _) fun _ => .ret _
      refine Fallible.keeps_bind (keeps_status hc) fun state => ?_
      dsimp only
      split
      · exact .ret _
      refine Fallible.keeps_bind (Fallible.keeps_foldlM
        (keeps_sample hc hR profile _ groupId logFiles hP) _ _) fun locals => ?_
      refine Fallible.keeps_bind (keeps_transmit hc hR _ groupId logFiles hP _ _)
        fun locals => ?_
      refine Fallible.keeps_bind (Fallible.keeps_foldlM
        (keeps_flush hc config _ groupId logFiles hP) _ _) fun locals => ?_
      refine Fallible.keeps_bind (keeps_status hc) fun state => ?_
      exact Fallible.keeps_bind (keeps_sleep hc _) fun _ => .ret _

end SensorListen

omit hR in
theorem keeps_heartbeat (hP : ∀ value, P (.heartbeat value)) (turns : Nat) :
    Locks.Keeps R P A [] (heartbeat turns).run := by
  have hbeat : ∀ value millis, Locks.Keeps R P A [] (beat value millis).run :=
    fun value millis => Fallible.keeps_bind (keeps_attempt (hP _) (by exact trivial) _) fun _ =>
      keeps_sleep hc _
  refine Fallible.keeps_bind (Fallible.keeps_loop (fun _ => ?_) _ _) fun _ => .ret _
  refine Fallible.keeps_bind (keeps_status hc) fun state => ?_
  split
  · exact .ret _
  · exact Fallible.keeps_bind (hbeat _ _) fun _ => Fallible.keeps_bind (hbeat _ _) fun _ =>
      Fallible.keeps_bind (hbeat _ _) fun _ => Fallible.keeps_bind (hbeat _ _) fun _ => .ret _

/-- What the driver status thread performs, besides what every thread may. -/
def Act.Reports : Act → Prop
  | op (.send message) => ∃ values, message = .driverValue values
  | lineCount | readLine _ | writeDriverLog _ _ => True
  | _ => False

theorem keeps_readDrivers (hP : ∀ driverIdx, P (.readLine driverIdx)) (driverStates : List Bool) :
    Locks.Keeps R P A [(.driverLines, .exclusive)] (readDrivers driverStates).run := by
  refine Fallible.keeps_foldlM (fun driverStates driverIdx => ?_) _ _
  refine Fallible.keeps_bind (keeps_call (hP _) (by exact trivial)) ?_
  rintro (_ | _)
  · exact Fallible.keeps_bind (keeps_log hc _ _ _ (one_held (hR _ _ .driverWarning)))
      fun _ => .ret _
  · exact .ret _

section DriverStatusListen

variable (hP : ∀ a, Act.Reports a → P a)
  (hstatus : ∀ readTime driverStates, A (.writeDriverLog readTime driverStates) (.ok ()) →
    ∀ l' l, NestsStatus l' l → R l' l)

include hP hstatus

/-- **Under the guard of the driver lines** the status is sent, once it has been logged. -/
theorem keeps_statusLocked (readTime : Nat) (driverStates : List Bool) :
    Locks.Keeps R P A [(.driverLines, .exclusive)] (statusLocked readTime driverStates).run := by
  refine Fallible.keeps_bind (keeps_readDrivers hc hR (fun _ => hP _ trivial) driverStates)
    fun driverStates => ?_
  refine keeps_op (a := .writeDriverLog readTime driverStates) (hP _ trivial) trivial ?_
  rintro (e | u) ha
  · exact .ret _
  · have hR' := hstatus _ _ ha
    refine Fallible.keeps_bind ?_ fun _ => .ret _
    exact (keeps_send hc (hP _ ⟨_, rfl⟩) (one_held (hR' _ _ .channel)) (one_held (hR' _ _ .log))
      (hR _ _ .send)).bind fun _ => .ret _

theorem keeps_driverStatusListen (config : Configuration) (turns : Nat) :
    Locks.Keeps R P A [] (driverStatusListen config turns).run := by
  unfold driverStatusListen
  split
  · exact .panic
  · refine Fallible.keeps_bind (keeps_guarded hc none_held fun poisoned => ?_) fun count => ?_
    · cases poisoned with
      | true => exact .ret _
      | false => exact keeps_call (hP _ trivial) (by exact trivial)
    · refine Fallible.keeps_bind (Fallible.keeps_loop (fun driverStates => ?_) _ _) fun _ => .ret _
      refine Fallible.keeps_bind (keeps_status hc) fun state => ?_
      split
      · exact .ret _
      refine Fallible.keeps_bind (keeps_now hc) fun readTime => ?_
      refine Fallible.keeps_bind (keeps_guarded hc none_held fun poisoned => ?_) fun _ =>
        Fallible.keeps_bind (keeps_sleep hc _) fun _ => .ret _
      cases poisoned with
      | true =>
        exact Fallible.keeps_bind (keeps_note hc _ _ _ (one_held (hR _ _ .driverWarning)))
          fun _ => .ret _
      | false => exact keeps_statusLocked hc hR hP hstatus readTime driverStates

end DriverStatusListen

end Common

/-! ## 5. Every thread -/

/-- What a thread performs. -/
def Thread.Performs (config : Configuration) (thread : Thread) (a : Act) : Prop :=
  a.Common ∨ match thread with
    | .accepting _ => a.Accepts config
    | .sensorListen groupId logFiles _ => a.Senses groupId logFiles
    | .driverStatusListen _ => a.Reports
    | .heartbeat _ => ∃ value, a = .heartbeat value
    | .handleCommand cmd => (∃ newState, a = .op (.moveTo newState)) ∨
        (∃ driverId value, a = .op (.write driverId value)) ∨
        ∃ time tag, a = .op (.logCommand time tag cmd)
    | .emergencyStop => (∃ newState, a = .op (.moveTo newState)) ∨
        ∃ driverId value, a = .op (.write driverId value)

section Threads

variable (hR : ∀ l' l, Nests l' l → R l' l)

include hR

theorem commandRoutine_keeps (config : Configuration) (cmd : Command) :
    Locks.Keeps R (Thread.Performs config (.handleCommand cmd)) A []
      (commandRoutine config cmd) :=
  keeps_commandRoutine (fun _ => Or.inl) hR config
    (fun _ _ => Or.inr (Or.inr (Or.inr ⟨_, _, rfl⟩))) (fun _ => Or.inr (Or.inl ⟨_, rfl⟩))
    fun _ _ => Or.inr (Or.inr (Or.inl ⟨_, _, rfl⟩))

theorem stopRoutine_keeps (config : Configuration) :
    Locks.Keeps R (Thread.Performs config .emergencyStop) A [] (stopRoutine config) :=
  keeps_stopRoutine (fun _ => Or.inl) hR config (fun _ => Or.inr (Or.inl ⟨_, rfl⟩))
    fun _ _ => Or.inr (Or.inr ⟨_, _, rfl⟩)

/-- **What every thread performs, and under which locks.** -/
theorem Thread.program_keeps
    (hstatus : ∀ readTime driverStates, A (.writeDriverLog readTime driverStates) (.ok ()) →
      ∀ l' l, NestsStatus l' l → R l' l)
    (F : Type) [F64 F] (config : Configuration) (profile : Profile)
    (fromSlice : List UInt8 → Option Command) (thread : Thread) :
    Locks.Keeps R (thread.Performs config) A [] (thread.program F config profile fromSlice) := by
  have hc : ∀ a, Act.Common a → thread.Performs config a := fun _ => Or.inl
  cases thread with
  | accepting turns =>
    exact (keeps_accepting hc hR config profile fromSlice (fun _ => Or.inr) turns).discard
  | sensorListen groupId logFiles turns =>
    exact (keeps_sensorListen hc hR config profile groupId logFiles (fun _ => Or.inr)
      turns).discard
  | driverStatusListen turns =>
    exact (keeps_driverStatusListen hc hR (fun _ => Or.inr) hstatus config turns).discard
  | heartbeat turns => exact (keeps_heartbeat hc (fun _ => Or.inr ⟨_, rfl⟩) turns).discard
  | handleCommand cmd => exact commandRoutine_keeps hR config cmd
  | emergencyStop => exact stopRoutine_keeps hR config

/-- The same of the threads that are started on the way. -/
theorem fork_keeps (config : Configuration) {a : Act} {p : Prog Act Act.Ans Unit}
    (h : (controller config).fork a = some p) :
    ∃ thread : Thread, ((∃ cmd, thread = .handleCommand cmd) ∨ thread = .emergencyStop) ∧
      Locks.Keeps R (thread.Performs config) A [] p := by
  rcases controller_fork h with ⟨cmd, rfl⟩ | rfl
  · exact ⟨.handleCommand cmd, Or.inl ⟨cmd, rfl⟩, commandRoutine_keeps hR config cmd⟩
  · exact ⟨.emergencyStop, Or.inr rfl, stopRoutine_keeps hR config⟩

/-- The locks of every thread a run starts with. -/
theorem controllerOf_keeps
    (hstatus : ∀ readTime driverStates, A (.writeDriverLog readTime driverStates) (.ok ()) →
      ∀ l' l, NestsStatus l' l → R l' l)
    (F : Type) [F64 F] (config : Configuration) (profile : Profile)
    (fromSlice : List UInt8 → Option Command) (threads : List Thread) (c : Controller) :
    ∀ p ∈ (controllerOf F config profile fromSlice threads c).threads,
      Locks.Keeps R (fun _ => True) A [] p := by
  intro p hp
  obtain ⟨thread, -, rfl⟩ := List.mem_map.mp hp
  exact (thread.program_keeps hR hstatus F config profile fromSlice).mono (fun _ _ => id)
    fun _ _ => trivial

/-- And of every thread it starts. -/
theorem fork_keeps_locks (config : Configuration) :
    ∀ a p, (controller config).fork a = some p → Locks.Keeps R (fun _ => True) A [] p := by
  intro a p h
  obtain ⟨thread, -, hp⟩ := fork_keeps hR config h
  exact hp.mono (fun _ _ => id) fun _ _ => trivial

end Threads

/-- What every thread performs, whatever it is answered. -/
theorem Thread.program_all (F : Type) [F64 F] (config : Configuration) (profile : Profile)
    (fromSlice : List UInt8 → Option Command) (thread : Thread) :
    (thread.program F config profile fromSlice).All (thread.Performs config) :=
  (thread.program_keeps (R := fun _ _ => True) (A := fun _ _ => True) (fun _ _ _ => trivial)
    (fun _ _ _ _ _ _ => trivial) F config profile fromSlice).all

theorem fork_all (config : Configuration) {a : Act} {p : Prog Act Act.Ans Unit}
    (h : (controller config).fork a = some p) :
    ∃ thread : Thread, ((∃ cmd, thread = .handleCommand cmd) ∨ thread = .emergencyStop) ∧
      p.All (thread.Performs config) := by
  obtain ⟨thread, hthread, hp⟩ := fork_keeps (R := fun _ _ => True) (A := fun _ _ => True)
    (fun _ _ _ => trivial) config h
  exact ⟨thread, hthread, hp.all⟩

/-- **What a thread of a run has performed**, and what is left of it. -/
theorem performs_of_run {F : Type} [F64 F] {config : Configuration} {profile : Profile}
    {fromSlice : List UInt8 → Option Command} {threads : List Thread} {c : Controller}
    {t : List (Event Act.Ans)} {s : Sys Act Act.Ans Controller}
    (hrun : Run (controller config) (controllerOf F config profile fromSlice threads c) t s)
    {i : Nat} {q : Prog Act Act.Ans Unit} (hq : s.threads[i]? = some q) :
    ∃ thread : Thread, (threads[i]? = some thread ∨ (∃ cmd, thread = .handleCommand cmd) ∨
        thread = .emergencyStop) ∧
      (∀ call ∈ history i t, thread.Performs config call.op) ∧ q.All (thread.Performs config) := by
  obtain ⟨p, hsteps, hp | ⟨e, -, hfork⟩⟩ := hrun.origin hq
  · rw [controllerOf, List.getElem?_map, Option.map_eq_some_iff] at hp
    obtain ⟨thread, hthread, rfl⟩ := hp
    exact ⟨thread, Or.inl hthread,
      hsteps.all (thread.program_all F config profile fromSlice)⟩
  · obtain ⟨thread, hthread, hall⟩ := fork_all config hfork
    exact ⟨thread, Or.inr hthread, hsteps.all hall⟩

end Slonk
