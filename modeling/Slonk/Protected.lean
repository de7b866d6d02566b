/-
# Protected drivers

A driver can be marked as "protected from user access", and so is the igniter of a real stand.
But the flag is data that travels to the dashboard and back to nobody: on the way from a client's
`Actuate` to `actuate_driver` nothing looks at it.

So protected lines are out of the dashboard's reach exactly when the dashboard does not reach for
them.  `ActuatesProtected` says that it does, in terms of the commands the stream decodes to; the
one thing that can stop it is an earlier `Actuate` with the number of drivers as its identifier,
which kills the client's thread and poisons the lines (`Bounds.lean`).

For the positive half, a procedure writes only from within its sequence (`SequenceWrites`), and
the client's thread follows a protocol that lets it write to unprotected drivers until it has tried
to write past the last one.
-/
import Slonk.CommandOrder
import Slonk.Bounds
import Slonk.Continuations
import Slonk.Concurrency.Protocol

namespace Slonk

open Concurrency

variable {config : Configuration} {profile : Profile} {fromSlice : List UInt8 → Option Command}
  {α β : Type} {cmd : Command} {m m' s s' : System} {e : Event Op.Ans} {t : Trace} {src : Source}

/-! ## 1. The property -/

/-- The driver with this identifier exists and is protected. -/
def IsProtected (config : Configuration) (driverId : Nat) : Prop :=
  ∃ driver, config.drivers[driverId]? = some driver ∧ driver.isProtected = true

/-- A client's thread, and procedures that were started by something else. -/
def dashboard (config : Configuration) (profile : Profile)
    (fromSlice : List UInt8 → Option Command) (src : Source) (kinds : List Procedure)
    (shared : Shared) : System :=
  ⟨shared, (handleClient config profile fromSlice src).run.discard ::
    kinds.map fun kind => (kind.code config).discard⟩

/-- What is left of a thread inside the sequence of a procedure, about to perform `o`. -/
def InSequence (config : Configuration) (p : Prog Op Op.Ans α) (o : Op) : Prop :=
  ∃ (f : Except ExecutionError Unit → Prog Op Op.Ans α) (stage : Stage) (action : Action)
    (rest : List Action), p = (stage.code config).bind f ∧ stage.pending = action :: rest ∧
      o = action.op

/-- **Protected drivers are out of reach** in the run `t` from `s₀` to `s`: every write to one is
a step of a sequence, and if there can be no sequence they are at their initial levels. -/
structure OutOfReach (config : Configuration) (cmds : List Command) (kinds : List Procedure)
    (s₀ : System) (t : Trace) (s : System) : Prop where
  writes : ∀ t₁ m e m' t₂, Moment (machine config) s₀ t s t₁ m e m' t₂ →
    ∀ driverId value, wrote e.call = some (driverId, value) → IsProtected config driverId.toNat →
      ∃ p, m.threads[e.tid]? = some p ∧ InSequence config p e.call.op
  levels : kinds = [] → .ignition ∉ cmds → .emergencyStop ∉ cmds →
    ∀ driverId, IsProtected config driverId →
      s.shared.driverLines.val[driverId]? = s₀.shared.driverLines.val[driverId]?

/-- The stream reaches for a protected driver: there is an `Actuate` of one, and no `Actuate`
before it has the number of drivers as its identifier. -/
def ActuatesProtected (config : Configuration) (cmds : List Command) : Prop :=
  ∃ before driverId value after, cmds = before ++ .actuate driverId value :: after ∧
    IsProtected config driverId.toNat ∧
    ∀ driverId' value', .actuate driverId' value' ∈ before →
      driverId'.toNat ≠ config.drivers.length

/-! ## 2. Procedures write in their sequences -/

/-- Every write in the program is one of a sequence. -/
def SequenceWrites (config : Configuration) : Prog Op Op.Ans α → Prop
  | .ret _ => True
  | .panic => True
  | .op o k => ((∀ driverId value, o ≠ .write driverId value) ∨ InSequence config (.op o k) o) ∧
      ∀ a, SequenceWrites config (k a)

theorem InSequence.bind {p : Prog Op Op.Ans α} {o : Op} (h : InSequence config p o)
    (g : α → Prog Op Op.Ans β) : InSequence config (p.bind g) o := by
  obtain ⟨f, stage, action, rest, rfl, hrest, ho⟩ := h
  exact ⟨_, stage, action, rest, Prog.bind_assoc _ _ _, hrest, ho⟩

theorem SequenceWrites.bind {p : Prog Op Op.Ans α} {g : α → Prog Op Op.Ans β}
    (hp : SequenceWrites config p) (hg : ∀ a, SequenceWrites config (g a)) :
    SequenceWrites config (p.bind g) := by
  induction p with
  | ret a => exact hg a
  | panic => trivial
  | op o k ih => exact ⟨hp.1.imp_right fun h => h.bind g, fun a => ih a (hp.2 a)⟩

/-- A program without a write. -/
theorem sequenceWrites_of_all {p : Prog Op Op.Ans α}
    (hp : p.All fun o => ∀ driverId value, o ≠ .write driverId value) :
    SequenceWrites config p := by
  induction p with
  | ret a => trivial
  | panic => trivial
  | op o k ih => exact ⟨Or.inl hp.1, fun a => ih a (hp.2 a)⟩

theorem SequenceWrites.steps {p q : Prog Op Op.Ans α} {h : List (Call Op.Ans)}
    (hs : Prog.Steps p h q) : SequenceWrites config p → SequenceWrites config q := by
  induction hs with
  | refl p => exact id
  | @head o k a h q _ ih =>
    intro hp
    refine ih ?_
    cases a with
    | none => trivial
    | some a => exact hp.2 a

/-- A stage whose operation is in a sequence, or is no write. -/
theorem sequenceWrites_stage (stage : Stage)
    (hcall : (∀ driverId value, stage.call config ≠ .write driverId value) ∨
      ∃ action rest, stage.pending = action :: rest ∧ stage.call config = action.op)
    (hafter : SequenceWrites config (codeAt config (stage.after config))) :
    SequenceWrites config (stage.code config) := by
  obtain ⟨k, hcode, hok, herr⟩ := stage.code_eq config
  have hseq : InSequence config (stage.code config) (stage.call config) ∨
      ∀ driverId value, stage.call config ≠ .write driverId value := by
    rcases hcall with hcall | ⟨action, rest, hrest, hcall⟩
    · exact Or.inr hcall
    · exact Or.inl ⟨.ret, stage, action, rest, (Prog.bind_pure_right _).symm, hrest, hcall⟩
  rw [hcode] at hseq ⊢
  refine ⟨hseq.symm, fun a => ?_⟩
  by_cases ha : Op.succeeds _ a
  · rw [hok a ha]
    exact hafter
  · obtain ⟨err, herr⟩ := herr a ha
    rw [herr]
    trivial

theorem sequenceWrites_igniting : ∀ rest : List Action,
    SequenceWrites config ((Stage.igniting rest).code config)
  | [] => by
    have hdone : SequenceWrites config (Stage.postDone.code config) :=
      sequenceWrites_stage .postDone (Or.inl nofun) trivial
    exact sequenceWrites_stage _ (Or.inl nofun)
      (sequenceWrites_stage .postWait (Or.inl nofun) hdone)
  | action :: rest => sequenceWrites_stage _ (Or.inr ⟨action, rest, rfl, rfl⟩)
      (sequenceWrites_igniting rest)

theorem sequenceWrites_stopping : ∀ rest : List Action,
    SequenceWrites config ((Stage.stopping rest).code config)
  | [] => sequenceWrites_stage _ (Or.inl nofun) trivial
  | action :: rest => sequenceWrites_stage _ (Or.inr ⟨action, rest, rfl, rfl⟩)
      (sequenceWrites_stopping rest)

/-- **A procedure writes only from within its sequence.** -/
theorem sequenceWrites_code (kind : Procedure) : SequenceWrites config (kind.code config) := by
  obtain ⟨k, hcode, herr, hok⟩ := kind.code_eq config
  rw [hcode]
  refine ⟨Or.inl nofun, fun a => ?_⟩
  rcases a with e | u
  · rw [herr]
    trivial
  rw [hok]
  cases kind with
  | ignition =>
    exact sequenceWrites_stage .preWait (Or.inl nofun)
      (sequenceWrites_stage .preDone (Or.inl nofun) (sequenceWrites_igniting _))
  | emergencyStop => exact sequenceWrites_stopping _

/-- **So does the thread of a command that is a procedure.** -/
theorem sequenceWrites_commandThread (hcmd : ∀ driverId value, cmd ≠ .actuate driverId value) :
    SequenceWrites config (commandThread config cmd) := by
  have hlog : ∀ o, Op.Logs o → ∀ driverId value, o ≠ .write driverId value := by
    rintro _ ho _ _ rfl
    exact ho
  have hexecute : SequenceWrites config (execute config cmd).run := by
    cases cmd with
    | actuate driverId value => exact absurd rfl (hcmd driverId value)
    | ignition => exact sequenceWrites_code .ignition
    | emergencyStop => exact sequenceWrites_code .emergencyStop
  refine SequenceWrites.bind ?_ fun _ => ⟨Or.inl nofun, fun _ => trivial⟩
  rw [handleCommand_eq]
  refine SequenceWrites.bind (g := thenRun _)
    (sequenceWrites_of_all (prologue_all hlog cmd)) fun r => ?_
  cases r with
  | error e => trivial
  | ok u =>
    refine SequenceWrites.bind (g := thenRun _) hexecute fun r => ?_
    cases r with
    | error e => trivial
    | ok u => exact sequenceWrites_of_all (epilogue_all hlog cmd)

/-! ## 3. What the client's thread writes -/

/-- A write just past the last driver. -/
def PastEnd (config : Configuration) : Op → Bool
  | .write driverId _ => decide (driverId.toNat = config.drivers.length)
  | _ => false

/-- The client's thread leaves protected drivers alone until it has tried to write past the last
one. -/
def clientProtocol (config : Configuration) : Protocol Op Op.Ans Bool where
  permits past o := past = true ∨
    ∀ driverId value, o = .write driverId value → ¬ IsProtected config driverId.toNat
  aborts _ := True
  next past c := past || PastEnd config c.op

/-- How operations answer when the command log is not poisoned. -/
def Logged : (o : Op) → o.Ans → Prop
  | .logCommand _ _ _, a => a ≠ .error .poisoned
  | _, _ => True

theorem after_eq_any (past : Bool) (h : List (Call Op.Ans)) :
    (clientProtocol config).after past h = (past || h.any fun c => PastEnd config c.op) := by
  induction h generalizing past with
  | nil => simp
  | cons c h ih =>
    rw [Protocol.after_cons, ih, List.any_cons, ← Bool.or_assoc]
    rfl

/-- Past the end everything is permitted. -/
theorem follows_past (p : Prog Op Op.Ans α) :
    p.Follows (clientProtocol config) Logged true fun _ past => past = true := by
  induction p with
  | ret a => rfl
  | panic => trivial
  | op o k ih => exact ⟨Or.inl rfl, fun a _ => ih a⟩

/-- A program that writes nothing leaves the protocol where it is. -/
theorem follows_of_all {p : Prog Op Op.Ans α}
    (hp : p.All fun o => ∀ driverId value, o ≠ .write driverId value) (past : Bool) :
    p.Follows (clientProtocol config) Logged past fun _ past' => past' = past := by
  refine hp.follows (fun o ho => Or.inr fun d v h => absurd h (ho d v)) (fun o a ho => ?_) trivial
  cases o with
  | write driverId value => exact absurd rfl (ho driverId value)
  | _ => simp [clientProtocol, PastEnd]

theorem not_write_of_logs {o : Op} (ho : o.Logs) (driverId : UInt8) (value : Bool) :
    o ≠ .write driverId value := by
  rintro rfl
  exact ho

/-- The prologue of a command succeeds. -/
theorem follows_prologue (cmd : Command) : (prologue cmd).run.Follows (clientProtocol config)
    Logged false fun r past => r = .ok () ∧ past = false := by
  have hpermits : ∀ {o : Op}, o.Logs → (clientProtocol config).permits false o :=
    fun ho => Or.inr fun d v h => absurd h (not_write_of_logs ho d v)
  refine ⟨hpermits trivial, fun time _ => ⟨hpermits trivial, fun _ _ => ⟨hpermits trivial, ?_⟩⟩⟩
  rintro ((_ | _) | _) hlogged
  · exact absurd rfl hlogged
  · exact ⟨hpermits trivial, fun _ _ => ⟨rfl, rfl⟩⟩
  · exact ⟨rfl, rfl⟩

/-- The write of an `Actuate`, and whether it was past the end. -/
theorem follows_execute {driverId : UInt8} {value : Bool}
    (h : ¬ IsProtected config driverId.toNat) :
    (execute config (.actuate driverId value)).run.Follows (clientProtocol config) Logged false
      fun _ past => driverId.toNat = config.drivers.length → past = true := by
  simp only [execute]
  split
  · rename_i hgt
    exact fun heq => absurd heq (by omega)
  · refine ⟨Or.inr ?_, fun a _ => ?_⟩
    · rintro _ _ ⟨⟩
      exact h
    · cases a with
      | ok u => exact fun heq => by simp [clientProtocol, PastEnd, heq]
      | error e => exact fun heq => by simp [clientProtocol, PastEnd, heq]

/-- **An `Actuate` of an unprotected driver.**  If its identifier is the number of drivers, it
tries to write past the end. -/
theorem follows_actuate {driverId : UInt8} {value : Bool}
    (h : ¬ IsProtected config driverId.toNat) :
    (actuateInline config driverId value).run.Follows (clientProtocol config) Logged false
      fun _ past => driverId.toNat = config.drivers.length → past = true := by
  have hcommand : (handleCommand config (.actuate driverId value)).run.Follows
      (clientProtocol config) Logged false
      fun _ past => driverId.toNat = config.drivers.length → past = true := by
    rw [handleCommand_eq]
    refine Prog.Follows.bind (f := thenRun _) ((follows_prologue _).mono ?_)
    rintro _ past ⟨rfl, rfl⟩
    refine Prog.Follows.bind (f := thenRun _) ((follows_execute h).mono fun r past hpast => ?_)
    cases r with
    | error e => exact hpast
    | ok u =>
      refine (follows_of_all (epilogue_all (fun _ => not_write_of_logs) _) past).mono ?_
      rintro _ past' rfl
      exact hpast
  have hlog : ∀ (level : LogLevel) (message : UserMessage) (past : Bool),
      (driverId.toNat = config.drivers.length → past = true) →
      (logUser level message).run.Follows (clientProtocol config) Logged past
        fun _ past => driverId.toNat = config.drivers.length → past = true := by
    intro level message past hpast
    refine (follows_of_all (logUser_all (fun _ => not_write_of_logs) level message) past).mono ?_
    rintro _ past' rfl
    exact hpast
  refine Prog.Follows.bind (f := thenRun _) (Prog.Follows.bind (hcommand.mono ?_))
  intro r past hpast
  cases r with
  | error e => exact hlog _ _ past hpast
  | ok u => exact hlog _ _ past hpast

/-- A stream that does not reach for a protected driver goes on not to. -/
theorem not_actuatesProtected_cons {cmds : List Command} (h : ¬ ActuatesProtected config (cmd :: cmds))
    (hcmd : ∀ driverId value, cmd = .actuate driverId value →
      driverId.toNat ≠ config.drivers.length) : ¬ ActuatesProtected config cmds := by
  rintro ⟨before, driverId, value, after, rfl, hprotected, hbefore⟩
  refine h ⟨cmd :: before, driverId, value, after, rfl, hprotected, ?_⟩
  intro driverId' value' hmem
  rcases List.mem_cons.mp hmem with heq | hmem
  · exact hcmd driverId' value' heq.symm
  · exact hbefore driverId' value' hmem

/-- A turn on anything but an `Actuate` writes nothing. -/
theorem handleMessage_not_write {result : Except IncomingError Command}
    (h : ∀ driverId value, result ≠ .ok (.actuate driverId value)) :
    (handleMessage config result).run.All fun o => ∀ driverId value, o ≠ .write driverId value :=
  handleMessage_all (fun _ => not_write_of_logs) (fun driverId value hr => absurd hr (h driverId value))
    (by rintro _ _ _ _ _ ⟨⟩)

/-- **The loop** follows the protocol on a stream that does not reach for a protected driver. -/
theorem follows_handleClientLoop (fuel : Nat) (src : Source) :
    ¬ ActuatesProtected config (decodeWith profile fromSlice fuel src) →
    (handleClientLoop config profile fromSlice fuel src).run.Follows (clientProtocol config) Logged
      false fun _ _ => True := by
  -- a message that is no `Actuate`, with the rest of the stream after it
  have hskip : ∀ {result : Except IncomingError Command} {p : Proc ControllerError Unit},
      (∀ driverId value, result ≠ .ok (.actuate driverId value)) →
      p.run.Follows (clientProtocol config) Logged false (fun _ _ => True) →
      (handleMessage config result >>= fun b => if b then p else pure ()).run.Follows
        (clientProtocol config) Logged false fun _ _ => True := by
    intro result p hresult hp
    refine Prog.Follows.bind (f := thenRun _)
      ((follows_of_all (handleMessage_not_write hresult) false).mono ?_)
    rintro (e | (_ | _)) past rfl
    · trivial
    · trivial
    · exact hp
  refine handleClientLoop_induct (motive := fun p cmds => ¬ ActuatesProtected config cmds →
    p.run.Follows (clientProtocol config) Logged false fun _ _ => True) ?_ ?_ ?_ ?_ fuel src
  · exact fun _ => trivial
  · refine fun _ => (follows_of_all ?_ false).mono fun _ _ _ => trivial
    exact Prog.All.bind (f := thenRun _) (logUser_all (fun _ => not_write_of_logs) _ _)
      fun r => by cases r <;> trivial
  · intro e p cmds _ _ ih h
    exact hskip (by simp) (ih h)
  · intro cmd p cmds ih h
    cases cmd with
    | ignition => exact hskip (by simp) (ih (not_actuatesProtected_cons h (by simp)))
    | emergencyStop => exact hskip (by simp) (ih (not_actuatesProtected_cons h (by simp)))
    | actuate driverId value =>
      have hunprotected : ¬ IsProtected config driverId.toNat := fun hprotected =>
        h ⟨[], driverId, value, _, rfl, hprotected, fun _ _ h => absurd h List.not_mem_nil⟩
      simp only [handleMessage, bind_assoc, pure_bind, if_true]
      refine Prog.Follows.bind (f := thenRun _) ((follows_actuate hunprotected).mono ?_)
      intro r past hpast
      cases r with
      | error e => trivial
      | ok u =>
        cases past with
        | true => exact (follows_past _).mono fun _ _ _ => trivial
        | false =>
          refine ih (not_actuatesProtected_cons h ?_)
          rintro _ _ ⟨⟩ heq
          cases hpast heq

/-- **The client's thread** follows the protocol. -/
theorem follows_handleClient
    (h : ¬ ActuatesProtected config (decode profile fromSlice src)) :
    (handleClient config profile fromSlice src).run.discard.Follows (clientProtocol config) Logged
      false fun _ _ => True := by
  refine Prog.Follows.discard (Prog.Follows.bind (f := thenRun _) ((follows_of_all ?_ false).mono ?_))
  · exact ⟨nofun, fun a => by cases a <;> trivial⟩
  rintro (e | u) past rfl
  · trivial
  refine Prog.Follows.bind (f := thenRun _) ((follows_of_all
    (logUser_all (fun _ => not_write_of_logs) _ _) false).mono ?_)
  rintro (e | u) past rfl
  · trivial
  · exact follows_handleClientLoop (src.length + 1) src h

/-! ## 4. A stream that does not reach for protected drivers -/

/-- No operation poisons the command log, or changes the number of lines. -/
theorem exec_keeps (o : Op) (env : Env) (shared : Shared) :
    (exec o env shared).2.cmdLog.poisoned = shared.cmdLog.poisoned ∧
      (exec o env shared).2.driverLines.val.length = shared.driverLines.val.length := by
  refine ⟨?_, (exec_lines o env shared).1⟩
  cases o with
  | moveTo newState => rfl
  | sleep duration => rfl
  | now => rfl
  | send message => rfl
  | spawn cmd => rfl
  | write driverId value =>
    simp only [exec]
    split
    · rfl
    · split <;> rfl
  | logCommand time tag cmd =>
    simp only [exec]
    split
    · rfl
    · split <;> rfl
  | userLog level message =>
    simp only [exec]
    split
    · rfl
    · split <;> rfl

/-- A command log that is not poisoned answers so. -/
theorem logged_exec {o : Op} {env : Env} {shared : Shared} (h : shared.cmdLog.poisoned = false)
    {a : o.Ans} (ha : (exec o env shared).1 = some a) : Logged o a := by
  cases o with
  | logCommand time tag cmd =>
    rintro rfl
    simp only [exec, h, Bool.false_eq_true, if_false] at ha
    split at ha <;> cases ha
  | _ => trivial

/-- Poisoned lines stay so, and a write past the end poisons them. -/
theorem exec_poisons (o : Op) (env : Env) (shared : Shared)
    (h : shared.driverLines.poisoned = true ∨
      ∃ driverId value, o = .write driverId value ∧
        shared.driverLines.val.length ≤ driverId.toNat) :
    (exec o env shared).2.driverLines.poisoned = true := by
  by_cases hp : shared.driverLines.poisoned = true
  · by_cases hw : ∃ driverId value, o = .write driverId value
    · obtain ⟨driverId, value, rfl⟩ := hw
      rw [exec_write_of_poisoned hp]
      exact hp
    · rw [exec_driverLines (fun d v hd => hw ⟨d, v, hd⟩)]
      exact hp
  · obtain ⟨driverId, value, rfl, hge⟩ := h.resolve_left hp
    rw [exec_write_of_ge (by simpa using hp) hge]

/-- What a run of the dashboard keeps: the number of lines, a sound command log, and lines that are
poisoned once a thread has tried to write past the end. -/
structure Kept (config : Configuration) (t : Trace) (shared : Shared) : Prop where
  length : shared.driverLines.val.length = config.drivers.length
  cmdLog : shared.cmdLog.poisoned = false
  logged : ∀ e ∈ t, ∀ a, e.call.ans = some a → Logged e.call.op a
  poisoned : ∀ e ∈ t, PastEnd config e.call.op = true → shared.driverLines.poisoned = true

theorem Kept.step {shared : Shared} (h : Kept config t shared) {env : Env}
    (hans : e.call.ans = (exec e.call.op env shared).1) :
    Kept config (t ++ [e]) (exec e.call.op env shared).2 := by
  obtain ⟨hcmdLog, hlength⟩ := exec_keeps e.call.op env shared
  constructor
  · exact hlength.trans h.length
  · exact hcmdLog.trans h.cmdLog
  · intro e' he' a ha
    rcases List.mem_append.mp he' with he' | he'
    · exact h.logged e' he' a ha
    · obtain rfl := List.mem_singleton.mp he'
      exact logged_exec h.cmdLog (hans.symm.trans ha)
  · intro e' he' hend
    refine exec_poisons _ _ _ ?_
    rcases List.mem_append.mp he' with he' | he'
    · exact Or.inl (h.poisoned e' he' hend)
    · obtain rfl := List.mem_singleton.mp he'
      cases hop : e'.call.op with
      | write driverId value =>
        rw [hop] at hend
        refine Or.inr ⟨driverId, value, rfl, ?_⟩
        rw [h.length]
        exact (of_decide_eq_true hend).ge
      | _ => rw [hop] at hend; cases hend

section Runs

variable {kinds : List Procedure} {lines : List Bool}

theorem kept_of_run (hlines : lines.length = config.drivers.length)
    (hrun : Run (machine config) (dashboard config profile fromSlice src kinds (Shared.new lines))
      t s) : Kept config t s.shared := by
  induction hrun with
  | refl =>
    exact ⟨hlines, rfl, fun e he => absurd he List.not_mem_nil,
      fun e he => absurd he List.not_mem_nil⟩
  | @tail m m' t e _ hs ih =>
    obtain ⟨env, hans, hsh⟩ := hs.exec
    rw [hsh]
    exact ih.step hans

/-- What a thread of a run spawns is a command of the stream. -/
theorem spawns_of_run
    (hrun : Run (machine config) (dashboard config profile fromSlice src kinds (Shared.new lines))
      t s) : ∀ e ∈ t, ∀ cmd, e.call.op = .spawn cmd →
        cmd ∈ spawned (decode profile fromSlice src) := by
  have hnone : ∀ {p : Prog Op Op.Ans Unit}, (p.All fun o => ∀ cmd, o ≠ .spawn cmd) →
      p.All fun o => ∀ cmd, o = .spawn cmd → cmd ∈ spawned (decode profile fromSlice src) :=
    fun hp => hp.mono fun _ ho cmd heq => absurd heq (ho cmd)
  refine (Run.all (P := fun o => ∀ cmd, o = .spawn cmd →
    cmd ∈ spawned (decode profile fromSlice src)) ?_ ?_ hrun).1
  · intro o p _ hfork
    cases o with
    | spawn cmd =>
      obtain rfl := Option.some.inj hfork
      exact hnone (commandThread_not_spawn config cmd)
    | _ => cases hfork
  · intro p hp
    rcases List.mem_cons.mp hp with rfl | hp
    · exact (handleClient_spawns src).mem
    · obtain ⟨kind, -, rfl⟩ := List.mem_map.mp hp
      refine hnone (Prog.All.discard ?_)
      exact Procedure.code_all (by rintro _ _ ⟨⟩) kind (by rintro _ _ _ ⟨⟩) (by rintro _ _ _ _ ⟨⟩)

/-- **Who writes to a protected driver**: a procedure that was started by something else, or one
that the client has spawned, from within its sequence. -/
theorem protected_writer (hlines : lines.length = config.drivers.length)
    (h : ¬ ActuatesProtected config (decode profile fromSlice src)) {t₁ t₂ : Trace}
    (hm : Moment (machine config) (dashboard config profile fromSlice src kinds (Shared.new lines))
      t s t₁ m e m' t₂) {driverId : UInt8} {value : Bool}
    (hw : wrote e.call = some (driverId, value)) (hprotected : IsProtected config driverId.toNat) :
    (kinds ≠ [] ∨ spawned (decode profile fromSlice src) ≠ []) ∧
      ∃ p, m.threads[e.tid]? = some p ∧ InSequence config p e.call.op := by
  obtain ⟨k, hk, -⟩ := hm.step.self
  obtain ⟨env, hans, -⟩ := hm.step.exec
  obtain ⟨hop, hsound, -⟩ := wrote_of_exec (a := e.call.ans) (Prod.ext hans.symm rfl) hw
  have hkept := kept_of_run hlines hm.before
  have hsequence : ∀ {p : Prog Op Op.Ans Unit}, SequenceWrites config p →
      Prog.Steps p (history e.tid t₁) (.op e.call.op k) →
        ∃ p, m.threads[e.tid]? = some p ∧ InSequence config p e.call.op := by
    intro p hp hsteps
    rcases (hp.steps hsteps).1 with hne | hin
    · exact absurd hop (hne driverId value)
    · exact ⟨_, hk, hin⟩
  obtain ⟨p, hsteps, hstart | ⟨e', he', hfork⟩⟩ := hm.before.origin hk
  · rcases List.mem_cons.mp (List.mem_of_getElem? hstart) with rfl | hkind
    · -- the client's own thread: its write is permitted, and nobody has poisoned the lines
      have hlogged : ∀ c ∈ history e.tid t₁, ∀ a, c.ans = some a → Logged c.op a := by
        intro c hc a ha
        obtain ⟨e', he', -, rfl⟩ := mem_history.mp hc
        exact hkept.logged e' he' a ha
      rcases (follows_handleClient h).steps hsteps hlogged with ⟨hpanic, -⟩ | hfollows
      · cases hpanic
      rcases hfollows.1 with hpast | hunprotected
      · rw [after_eq_any, Bool.false_or, List.any_eq_true] at hpast
        obtain ⟨c, hc, hend⟩ := hpast
        obtain ⟨e', he', -, rfl⟩ := mem_history.mp hc
        exact nomatch hsound.symm.trans (hkept.poisoned e' he' hend)
      · exact absurd hprotected (hunprotected driverId value hop)
    · obtain ⟨kind, hmem, rfl⟩ := List.mem_map.mp hkind
      refine ⟨Or.inl (List.ne_nil_of_mem hmem), hsequence ?_ hsteps⟩
      exact (sequenceWrites_code kind).bind fun _ => trivial
  · obtain ⟨cmd, hcmd, rfl⟩ : ∃ cmd, e'.call.op = .spawn cmd ∧ commandThread config cmd = p := by
      cases ho : e'.call.op with
      | spawn cmd => rw [ho] at hfork; exact ⟨cmd, rfl, Option.some.inj hfork⟩
      | _ => rw [ho] at hfork; cases hfork
    have hmem := spawns_of_run hm.before e' he' cmd hcmd
    refine ⟨Or.inr (List.ne_nil_of_mem hmem), hsequence (sequenceWrites_commandThread ?_) hsteps⟩
    rintro driverId value rfl
    simp [spawned] at hmem

/-- A line that no write has landed on is at its old level. -/
theorem level_of_run {s₀ : System} {d : Nat} (hrun : Run (machine config) s₀ t s)
    (h : ∀ e ∈ t, ∀ driverId value, landed e.call = some (driverId, value) → driverId.toNat ≠ d) :
    s.shared.driverLines.val[d]? = s₀.shared.driverLines.val[d]? := by
  induction hrun with
  | refl => rfl
  | @tail m m' t e _ hs ih =>
    obtain ⟨env, hans, hsh⟩ := hs.exec
    have hcall : (⟨e.call.op, (exec e.call.op env m.shared).1⟩ : Call Op.Ans) = e.call := by
      rw [show (exec e.call.op env m.shared).1 = e.call.ans from hans.symm]
    have hlevels := exec_levels e.call.op env m.shared
    rw [hcall] at hlevels
    rw [← ih fun e' he' => h e' (List.mem_append_left _ he'), hsh]
    refine (congrArg (·[d]?) hlevels).trans ?_
    cases hl : landed e.call with
    | none => simp [hl]
    | some w =>
      have hne := h e (by simp) w.1 w.2 hl
      simp [hl, applyWrites, List.getElem?_set_ne hne]

/-- **Protected drivers are out of reach** of a stream that does not reach for them. -/
theorem outOfReach_of_run (hlines : lines.length = config.drivers.length)
    (h : ¬ ActuatesProtected config (decode profile fromSlice src))
    (hrun : Run (machine config) (dashboard config profile fromSlice src kinds (Shared.new lines))
      t s) :
    OutOfReach config (decode profile fromSlice src) kinds
      (dashboard config profile fromSlice src kinds (Shared.new lines)) t s := by
  constructor
  · intro t₁ m e m' t₂ hm driverId value hw hprotected
    exact (protected_writer hlines h hm hw hprotected).2
  · intro hkinds hignition hstop d hprotected
    have hnone : spawned (decode profile fromSlice src) = [] := by
      rw [spawned, List.filter_eq_nil_iff]
      intro cmd hcmd
      cases cmd with
      | actuate driverId value => simp
      | ignition => exact absurd hcmd hignition
      | emergencyStop => exact absurd hcmd hstop
    refine level_of_run hrun fun e he driverId value hl hd => ?_
    subst hd
    obtain ⟨t₁, t₂, rfl⟩ := List.append_of_mem he
    obtain ⟨m, m', hm⟩ := hrun.moment
    rcases (protected_writer hlines h hm (wrote_of_landed hl) hprotected).1 with hne | hne
    · exact hne hkinds
    · exact hne hnone

end Runs

/-! ## 5. A stream that does -/

/-- Nothing fails. -/
def Fine (env : Env) : Prop := env = Env.fine

theorem spec_logUser {n : Nat} {shared : Shared} (hs : Healthy n shared) (level : LogLevel)
    (message : UserMessage) :
    Spec (machine config) Fine (logUser level message).run shared fun r _ shared' =>
      r = .ok () ∧ Healthy n shared' := by
  refine Spec.op fun env henv => ?_
  subst henv
  have hexec : (exec (.userLog level message) Env.fine shared).1 = some (.ok ()) := by
    simp [exec, hs.userLog, Env.fine]
  obtain ⟨-, hs'⟩ := exec_healthy (o := .userLog level message) Env.fine trivial hs
  exact ⟨.ok (), hexec, Spec.ret ⟨rfl, hs'⟩⟩

/-- An `Actuate` that is not past the end leaves everything healthy. -/
theorem spec_handleActuate {shared : Shared} (hs : Healthy config.drivers.length shared)
    {driverId : UInt8} (value : Bool) (h : driverId.toNat ≠ config.drivers.length) :
    Spec (machine config) Fine (handleCommand config (.actuate driverId value)).run shared
      fun _ _ shared' => Healthy config.drivers.length shared' := by
  by_cases hlt : driverId.toNat < config.drivers.length
  · exact (spec_actuate_below hs value hlt hlt.le).mono fun _ _ _ hp => hp.2.healthy
  · exact (does_actuate_beyond hs value (by omega)).mono fun _ _ _ hp => hp.2.healthy

/-- **A turn of the loop** that is neither the end of the connection nor past the end of the
drivers goes on. -/
theorem spec_handleMessage {shared : Shared} (hs : Healthy config.drivers.length shared)
    {result : Except IncomingError Command} (heof : result ≠ .error (.io .unexpectedEof))
    (hreset : result ≠ .error (.io .connectionReset))
    (hactuate : ∀ driverId value, result = .ok (.actuate driverId value) →
      driverId.toNat ≠ config.drivers.length) :
    Spec (machine config) Fine (handleMessage config result).run shared fun r _ shared' =>
      r = .ok true ∧ Healthy config.drivers.length shared' := by
  have hlog : ∀ {shared : Shared} (level : LogLevel) (message : UserMessage),
      Healthy config.drivers.length shared →
      Spec (machine config) Fine
        (logUser level message >>= fun _ => pure true : Proc ControllerError Bool).run shared
        fun r _ shared' => r = .ok true ∧ Healthy config.drivers.length shared' := by
    intro shared level message hs
    refine Spec.bind (f := thenRun _) ((spec_logUser hs level message).mono ?_)
    rintro _ _ shared' ⟨rfl, hs'⟩
    exact Spec.ret ⟨rfl, hs'⟩
  have hspawn : ∀ cmd, Spec (machine config) Fine
      (spawn cmd >>= fun _ => logUser .debug (.text "Finished executing command.") >>= fun _ =>
        pure true : Proc ControllerError Bool).run shared
      fun r _ shared' => r = .ok true ∧ Healthy config.drivers.length shared' :=
    fun cmd => Spec.op fun env _ => ⟨(), rfl, hlog _ _ hs⟩
  match result with
  | .error (.malformed message) => exact hlog _ _ hs
  | .error (.io .unexpectedEof) => exact absurd rfl heof
  | .error (.io .connectionReset) => exact absurd rfl hreset
  | .error (.io .interrupted) => exact hlog _ _ hs
  | .error (.io (.other description)) => exact hlog _ _ hs
  | .ok .ignition => exact hspawn _
  | .ok .emergencyStop => exact hspawn _
  | .ok (.actuate driverId value) =>
    refine Spec.bind (f := thenRun _) (Spec.bind (f := thenRun _) (Spec.bind
      ((spec_handleActuate hs value (hactuate driverId value rfl)).mono ?_)))
    intro r _ shared' hs'
    refine Spec.ret ?_
    cases r with
    | error e =>
      refine (spec_logUser hs' _ _).mono ?_
      rintro _ _ shared'' ⟨rfl, hs''⟩
      exact Spec.ret ⟨rfl, hs''⟩
    | ok u =>
      refine (spec_logUser hs' _ _).mono ?_
      rintro _ _ shared'' ⟨rfl, hs''⟩
      exact Spec.ret ⟨rfl, hs''⟩

/-- A thread about to write to a protected driver, outside any sequence. -/
def Reaches (config : Configuration) (s : System) : Prop :=
  ∃ (t : Trace) (m : System) (driverId : UInt8) (value : Bool)
    (k : (Op.write driverId value).Ans → Prog Op Op.Ans Unit), Run (machine config) s t m ∧
      IsProtected config driverId.toNat ∧ m.threads[0]? = some (.op (.write driverId value) k) ∧
        Healthy config.drivers.length m.shared

theorem Reaches.of_run (hrun : Run (machine config) s t s') (h : Reaches config s') :
    Reaches config s := by
  obtain ⟨t', m, driverId, value, k, hrun', h⟩ := h
  exact ⟨_, m, driverId, value, k, hrun.trans hrun', h⟩

/-- **An `Actuate` gets to its write.** -/
theorem reaches_actuate {f : Except ExecutionError Unit → Prog Op Op.Ans Unit} {driverId : UInt8}
    {value : Bool} (hprotected : IsProtected config driverId.toNat)
    (hthread : s.threads[0]? =
      some ((handleCommand config (.actuate driverId value)).run.bind f))
    (hs : Healthy config.drivers.length s.shared) : Reaches config s := by
  rw [handleCommand_eq, run_bind, Prog.bind_assoc] at hthread
  have hprologue : Does config Fine _ (prologue (.actuate driverId value)).run s.shared _ _ _ :=
    does_prologue hs _
  obtain ⟨r, t, h, m, hrun, hm, rfl, hp⟩ := Spec.reach hprologue hthread (rfl : Fine _)
  have hle : ¬ config.drivers.length < driverId.toNat := by
    obtain ⟨driver, hdriver, -⟩ := hprotected
    have := (List.getElem?_eq_some_iff.mp hdriver).1
    omega
  simp only [thenRun_ok, execute, gt_iff_lt, if_neg hle] at hm
  exact ⟨t, m, driverId, value, _, hrun, hprotected, hm, hp.healthy⟩

/-- A turn on an `Actuate` begins with its command. -/
theorem turn_actuate (driverId : UInt8) (value : Bool) (p : Bool → Proc ControllerError Unit)
    (f : Except ControllerError Unit → Prog Op Op.Ans Unit) :
    ∃ f', (handleMessage config (.ok (.actuate driverId value)) >>= p).run.bind f =
      (handleCommand config (.actuate driverId value)).run.bind f' :=
  ⟨_, (Prog.bind_assoc _ _ _).trans <| (Prog.bind_assoc _ _ _).trans <|
    (Prog.bind_assoc _ _ _).trans (Prog.bind_assoc _ _ _)⟩

/-- **The loop gets to it** on a stream that reaches for a protected driver. -/
theorem reaches_handleClientLoop (fuel : Nat) (src : Source) : ∀ (s : System)
    (f : Except ControllerError Unit → Prog Op Op.Ans Unit),
    s.threads[0]? = some ((handleClientLoop config profile fromSlice fuel src).run.bind f) →
    Healthy config.drivers.length s.shared →
    ActuatesProtected config (decodeWith profile fromSlice fuel src) → Reaches config s := by
  have hempty : ¬ ActuatesProtected config [] := by
    rintro ⟨before, _, _, _, heq, -⟩
    simp at heq
  -- one turn after which the loop goes on
  have hturn : ∀ {result : Except IncomingError Command} {p : Proc ControllerError Unit}
      {s : System} {f : Except ControllerError Unit → Prog Op Op.Ans Unit},
      s.threads[0]? = some ((handleMessage config result >>= fun b =>
        if b then p else pure ()).run.bind f) →
      Healthy config.drivers.length s.shared →
      result ≠ .error (.io .unexpectedEof) → result ≠ .error (.io .connectionReset) →
      (∀ driverId value, result = .ok (.actuate driverId value) →
        driverId.toNat ≠ config.drivers.length) →
      (∀ m, m.threads[0]? = some (p.run.bind f) → Healthy config.drivers.length m.shared →
        Reaches config m) → Reaches config s := by
    intro result p s f hthread hs heof hreset hactuate hp
    rw [run_bind, Prog.bind_assoc] at hthread
    obtain ⟨r, t, _, m, hrun, hm, rfl, hhealthy⟩ :=
      (spec_handleMessage hs heof hreset hactuate).reach hthread (rfl : Fine _)
    exact .of_run hrun (hp m hm hhealthy)
  refine handleClientLoop_induct (motive := fun p cmds => ∀ (s : System)
    (f : Except ControllerError Unit → Prog Op Op.Ans Unit), s.threads[0]? = some (p.run.bind f) →
    Healthy config.drivers.length s.shared → ActuatesProtected config cmds → Reaches config s)
    ?_ ?_ ?_ ?_ fuel src
  · exact fun _ _ _ _ h => absurd h hempty
  · exact fun _ _ _ _ h => absurd h hempty
  · intro e p cmds heof hreset ih s f hthread hs h
    exact hturn hthread hs (by simpa using heof) (by simpa using hreset) (by simp)
      fun m hm hhealthy => ih m f hm hhealthy h
  · rintro cmd p cmds ih s f hthread hs ⟨before, driverId, value, after, heq, hprotected, hbefore⟩
    cases before with
    | nil =>
      obtain ⟨rfl, -⟩ := List.cons.inj heq
      obtain ⟨f', hf'⟩ := turn_actuate driverId value _ f
      exact reaches_actuate hprotected (hthread.trans (congrArg some hf')) hs
    | cons cmd' before =>
      obtain ⟨rfl, rfl⟩ := List.cons.inj heq
      refine hturn hthread hs (by simp) (by simp) ?_ fun m hm hhealthy => ih m f hm hhealthy
        ⟨before, driverId, value, after, rfl, hprotected,
          fun d v hmem => hbefore d v (List.mem_cons_of_mem _ hmem)⟩
      rintro d v ⟨⟩
      exact hbefore d v List.mem_cons_self

theorem spec_send {n : Nat} {shared : Shared} (hs : Healthy n shared) (message : Message) :
    Spec (machine config) Fine (send message).run shared fun r _ shared' =>
      r = .ok () ∧ Healthy n shared' := by
  refine Spec.op fun env henv => ?_
  subst henv
  obtain ⟨-, hs'⟩ := exec_healthy (o := .send message) Env.fine trivial hs
  exact ⟨.ok (), congrArg some (DashChannel.send_ok hs.dashChannel hs.messageLog message _ _),
    Spec.ret ⟨rfl, hs'⟩⟩

/-- **The client gets to it.** -/
theorem reaches_handleClient (kinds : List Procedure) {shared : Shared}
    (hs : Healthy config.drivers.length shared)
    (h : ActuatesProtected config (decode profile fromSlice src)) :
    Reaches config (dashboard config profile fromSlice src kinds shared) := by
  have hthread : (dashboard config profile fromSlice src kinds shared).threads[0]? =
      some ((handleClient config profile fromSlice src).run.bind fun _ => .ret ()) := rfl
  rw [handleClient, run_bind, Prog.bind_assoc] at hthread
  have hsend : Spec (machine config) Fine (send (.config config)).run
      (dashboard config profile fromSlice src kinds shared).shared _ := spec_send hs _
  obtain ⟨_, t₁, _, m₁, hrun₁, hm₁, rfl, hs₁⟩ := hsend.reach hthread (rfl : Fine _)
  rw [thenRun_ok, run_bind, Prog.bind_assoc] at hm₁
  have hlog : Spec (machine config) Fine (logUser .debug (.text
      "Successfully sent configuration to dashboard.")).run m₁.shared _ := spec_logUser hs₁ _ _
  obtain ⟨_, t₂, _, m₂, hrun₂, hm₂, rfl, hs₂⟩ := hlog.reach hm₁ (rfl : Fine _)
  exact .of_run hrun₁ (.of_run hrun₂ (reaches_handleClientLoop _ src m₂ _ hm₂ hs₂ h))

/-- After its sequence a procedure moves the guard. -/
theorem Procedure.performing_moves (kind : Procedure)
    {f : Except ExecutionError Unit → Prog Op Op.Ans α} : ∀ rest : List Action,
    ¬ (((kind.performing rest).code config).bind f).All
      fun o => ∀ newState, o ≠ .moveTo newState
  | [], h => by
    obtain ⟨k, hcode, -⟩ := (kind.performing []).code_eq config
    rw [hcode] at h
    cases kind with
    | ignition => exact h.1 .postIgnite rfl
    | emergencyStop => exact h.1 .standby rfl
  | action :: rest, h => by
    obtain ⟨k, hcode, hok, -⟩ := (kind.performing (action :: rest)).code_eq config
    obtain ⟨a, ha⟩ := ((kind.performing (action :: rest)).call config).exists_succeeds
    rw [hcode] at h
    have hnext : ((k a).bind f).All fun o => ∀ newState, o ≠ .moveTo newState := h.2 a
    rw [hok a ha] at hnext
    cases kind with
    | ignition => exact Procedure.performing_moves .ignition rest hnext
    | emergencyStop => exact Procedure.performing_moves .emergencyStop rest hnext

/-- So a thread that will not is in no sequence. -/
theorem not_inSequence {p : Prog Op Op.Ans α} {o : Op}
    (hp : p.All fun o => ∀ newState, o ≠ .moveTo newState) : ¬ InSequence config p o := by
  rintro ⟨f, stage, action, rest, rfl, hrest, -⟩
  cases stage with
  | igniting l => exact Procedure.performing_moves .ignition l hp
  | stopping l => exact Procedure.performing_moves .emergencyStop l hp
  | _ => cases hrest

/-- **That write is no step of a sequence.** -/
theorem not_outOfReach {shared : Shared} (hs : Healthy config.drivers.length shared)
    (h : ActuatesProtected config (decode profile fromSlice src)) :
    ∃ t s, Run (machine config) (dashboard config profile fromSlice src [] shared) t s ∧
      ¬ OutOfReach config (decode profile fromSlice src) []
        (dashboard config profile fromSlice src [] shared) t s := by
  obtain ⟨t, m, driverId, value, k, hrun, hprotected, hthread, hhealthy⟩ :=
    reaches_handleClient [] hs h
  have hlt : driverId.toNat < m.shared.driverLines.val.length := by
    obtain ⟨driver, hdriver, -⟩ := hprotected
    rw [hhealthy.length]
    exact (List.getElem?_eq_some_iff.mp hdriver).1
  have hstep := Machine.StepTo.intro (M := machine config) hthread Env.fine
  have hexec := exec_write_of_lt hhealthy.driverLines hlt value Env.fine
  rw [machine_exec, hexec] at hstep
  refine ⟨_, _, hrun.tail hstep, fun hout => ?_⟩
  obtain ⟨p, hp, hin⟩ := hout.writes t m _ _ [] ⟨rfl, hrun, hstep, Run.refl⟩ driverId value rfl
    hprotected
  obtain ⟨q, hq, hsteps⟩ := hrun.steps (i := 0)
    (show (dashboard config profile fromSlice src [] shared).threads[0]? = some _ from rfl)
  have hall := (hsteps.all (handleClient_not_move src).discard).2
  obtain rfl : p = q := Option.some.inj (hp.symm.trans hq)
  exact not_inSequence hall hin

/-! ## 6. The condition -/

/-- **When protected drivers are out of the dashboard's direct reach**: in all runs of a client,
with any procedures beside it, exactly if its stream does not reach for one. -/
theorem protected_out_of_reach_iff (config : Configuration) (profile : Profile)
    (fromSlice : List UInt8 → Option Command) (src : Source) (lines : List Bool)
    (hlines : lines.length = config.drivers.length) :
    (∀ kinds t s,
      Run (machine config) (dashboard config profile fromSlice src kinds (Shared.new lines)) t s →
        OutOfReach config (decode profile fromSlice src) kinds
          (dashboard config profile fromSlice src kinds (Shared.new lines)) t s) ↔
      ¬ ActuatesProtected config (decode profile fromSlice src) := by
  constructor
  · intro hall hreach
    obtain ⟨t, s, hrun, hnot⟩ := not_outOfReach (hlines ▸ healthy_new lines) hreach
    exact hnot (hall [] t s hrun)
  · intro h kinds t s hrun
    exact outOfReach_of_run hlines h hrun

/-- A stand with these drivers. -/
def stand (drivers : List Driver) : Configuration :=
  { Configuration.oneDriver [] [] with drivers := drivers }

def feedline : Driver := ⟨"Feedline", "Open", "Close", 19, false⟩

def igniter : Driver := ⟨"Ignition", "Ignite", "Shufoff", 17, true⟩

/-- The feedline comes first, and the dashboard opens that. -/
theorem feedline_out_of_reach :
    decode .debug sampleFromSlice (Source.ofBytes actuateMessage.bytes) = [.actuate 0 true] ∧
    ∀ kinds t s, Run (machine (stand [feedline, igniter])) (dashboard (stand [feedline, igniter])
        .debug sampleFromSlice (Source.ofBytes actuateMessage.bytes) kinds
        (Shared.new [false, false])) t s →
      OutOfReach (stand [feedline, igniter])
        (decode .debug sampleFromSlice (Source.ofBytes actuateMessage.bytes)) kinds
        (dashboard (stand [feedline, igniter]) .debug sampleFromSlice
          (Source.ofBytes actuateMessage.bytes) kinds (Shared.new [false, false])) t s := by
  have hdecode : decode .debug sampleFromSlice (Source.ofBytes actuateMessage.bytes) =
      [.actuate 0 true] := by decide +kernel
  refine ⟨hdecode, (protected_out_of_reach_iff (stand [feedline, igniter]) .debug sampleFromSlice
    (Source.ofBytes actuateMessage.bytes) [false, false] rfl).mpr ?_⟩
  rw [hdecode]
  rintro ⟨before, driverId, value, after, heq, ⟨driver, hdriver, hprotected⟩, -⟩
  cases before with
  | nil =>
    obtain ⟨⟨⟩, -⟩ := List.cons.inj heq
    obtain rfl := Option.some.inj hdriver
    cases hprotected
  | cons cmd before => simp at heq

/-- The igniter comes first: one `Actuate` ignites it, with no ignition and no stop anywhere. -/
theorem igniter_in_reach :
    (Configuration.parse (fun _ : Unit => .ok (stand [igniter, feedline])) () =
      .ok (stand [igniter, feedline])) ∧
    ∃ t s, Run (machine (stand [igniter, feedline])) (dashboard (stand [igniter, feedline]) .debug
        sampleFromSlice (Source.ofBytes actuateMessage.bytes) [] (Shared.new [false, false])) t s ∧
      s.shared.driverLines.val = [true, false] ∧
      ¬ OutOfReach (stand [igniter, feedline])
        (decode .debug sampleFromSlice (Source.ofBytes actuateMessage.bytes)) []
        (dashboard (stand [igniter, feedline]) .debug sampleFromSlice
          (Source.ofBytes actuateMessage.bytes) [] (Shared.new [false, false])) t s := by
  have hdecode : decode .debug sampleFromSlice (Source.ofBytes actuateMessage.bytes) =
      [.actuate 0 true] := by decide +kernel
  have hrun := run_runSchedule (M := machine (stand [igniter, feedline]))
    (List.replicate 6 (0, Env.fine))
    (dashboard (stand [igniter, feedline]) .debug sampleFromSlice
      (Source.ofBytes actuateMessage.bytes) [] (Shared.new [false, false]))
  have hlines : ((machine (stand [igniter, feedline])).runSchedule (List.replicate 6 (0, Env.fine))
      (dashboard (stand [igniter, feedline]) .debug sampleFromSlice
        (Source.ofBytes actuateMessage.bytes) [] (Shared.new [false, false]))).2.shared.driverLines.val
      = [true, false] := by decide +kernel
  refine ⟨by decide +kernel, _, _, hrun, hlines, fun hout => ?_⟩
  rw [hdecode] at hout
  have hlevel := hout.levels rfl (by simp) (by simp) 0 ⟨igniter, rfl, rfl⟩
  rw [hlines] at hlevel
  cases hlevel

end Slonk
