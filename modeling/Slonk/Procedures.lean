/-
# Where a running procedure can be

The programs of `Execution.lean` are trees.  This file says, once, which positions an
invocation of `ignition` or `emergency_stop` passes through and what its next operation is at
each, so that an invariant over many threads is a case split over `Stage` and never unfolds a
program.

* `Stage` is a position after the first successful `move_to`; `Stage.code` is the program that
  is left there.
* `Stage.call` is the pending operation and `Stage.after` the position once it succeeds
  (`Stage.code_eq`, the one place where the programs are unfolded).
* `Status` adds the two ends, an invocation that has not started and one that is over, together
  with what its calls have been so far; `Status.of_steps` says there is nothing else.
-/
import Slonk.Execution

namespace Slonk

open Concurrency

/-- The two procedures that move the guard. -/
inductive Procedure
  | ignition
  | emergencyStop
  deriving DecidableEq, Repr

/-- The program of a procedure. -/
def Procedure.code (config : Configuration) :
    Procedure → Prog Op Op.Ans (Except ExecutionError Unit)
  | .ignition => (Slonk.ignition config).run
  | .emergencyStop => (Slonk.emergencyStop config).run

/-- The sequence of actions a procedure performs. -/
def Procedure.actions (config : Configuration) : Procedure → List Action
  | .ignition => config.ignitionSequence
  | .emergencyStop => config.estopSequence

/-- The state a procedure moves the guard to first. -/
def Procedure.entry : Procedure → State
  | .ignition => .preIgnite
  | .emergencyStop => .eStopping

/-- The operation of one action. -/
def Action.op : Action → Op
  | .actuate driverId value => .write driverId value
  | .sleep duration => .sleep duration

theorem Action.op_injective {action action' : Action} (h : action.op = action'.op) :
    action = action' := by
  cases action <;> cases action' <;> cases h <;> rfl

theorem Action.op_ne_moveTo (action : Action) (newState : State) :
    action.op ≠ .moveTo newState := by
  cases action <;> exact nofun

/-! ## 1. The stages -/

/-- A position of an invocation after its first successful `move_to`. -/
inductive Stage
  /-- before the pre-ignition wait -/
  | preWait
  /-- after it, before `move_to(Ignite)` -/
  | preDone
  /-- in `Ignite`, with these actions of `ignition_sequence` left -/
  | igniting (rest : List Action)
  /-- before the post-ignition wait -/
  | postWait
  /-- after it, before `move_to(Standby)` -/
  | postDone
  /-- in `EStopping`, with these actions of `estop_sequence` left -/
  | stopping (rest : List Action)
  deriving DecidableEq, Repr

namespace Stage

/-- The procedure the stage belongs to. -/
def procedure : Stage → Procedure
  | stopping _ => .emergencyStop
  | _ => .ignition

/-- The state the invocation installed last. -/
def phase : Stage → State
  | preWait | preDone => .preIgnite
  | igniting _ => .ignite
  | postWait | postDone => .postIgnite
  | stopping _ => .eStopping

/-- The state its next `move_to` asks for. -/
def next : Stage → State
  | preWait | preDone => .ignite
  | igniting _ => .postIgnite
  | postWait | postDone | stopping _ => .standby

/-- The states it has installed, in order. -/
def moves : Stage → List State
  | preWait | preDone => [.preIgnite]
  | igniting _ => [.preIgnite, .ignite]
  | postWait | postDone => [.preIgnite, .ignite, .postIgnite]
  | stopping _ => [.eStopping]

/-- The actions it still has to perform. -/
def rest (config : Configuration) : Stage → List Action
  | preWait | preDone => config.ignitionSequence
  | igniting rest => rest
  | postWait | postDone => []
  | stopping rest => rest

/-- The actions it performs before its next transition. -/
def pending : Stage → List Action
  | igniting rest | stopping rest => rest
  | _ => []

/-- The operation it performs next. -/
def call (config : Configuration) : Stage → Op
  | preWait => .sleep (Duration.fromMillis config.preIgniteTime)
  | preDone => .moveTo .ignite
  | igniting [] => .moveTo .postIgnite
  | igniting (action :: _) => action.op
  | postWait => .sleep (Duration.fromMillis config.postIgniteTime)
  | postDone => .moveTo .standby
  | stopping [] => .moveTo .standby
  | stopping (action :: _) => action.op

/-- The stage once that operation has succeeded; `none` when the procedure has returned. -/
def after (config : Configuration) : Stage → Option Stage
  | preWait => some preDone
  | preDone => some (igniting config.ignitionSequence)
  | igniting [] => some postWait
  | igniting (_ :: rest) => some (igniting rest)
  | postWait => some postDone
  | postDone => none
  | stopping [] => none
  | stopping (_ :: rest) => some (stopping rest)

/-- What `ignition` does after its sequence. -/
def afterIgnition (config : Configuration) : Proc ExecutionError Unit := do
  moveTo .postIgnite
  sleep (Duration.fromMillis config.postIgniteTime)
  moveTo .standby

/-- The program that is left at a stage. -/
def code (config : Configuration) : Stage → Prog Op Op.Ans (Except ExecutionError Unit)
  | preWait => ExceptT.run do
      sleep (Duration.fromMillis config.preIgniteTime)
      moveTo .ignite
      performActions config.ignitionSequence
      afterIgnition config
  | preDone => ExceptT.run do
      moveTo .ignite
      performActions config.ignitionSequence
      afterIgnition config
  | igniting rest => ExceptT.run do
      performActions rest
      afterIgnition config
  | postWait => ExceptT.run do
      sleep (Duration.fromMillis config.postIgniteTime)
      moveTo .standby
  | postDone => (moveTo .standby).run
  | stopping rest => ExceptT.run do
      performActions rest
      moveTo .standby

end Stage

/-- The stage a procedure is at once its first `move_to` has succeeded. -/
def Procedure.start (config : Configuration) : Procedure → Stage
  | .ignition => .preWait
  | .emergencyStop => .stopping config.estopSequence

/-- Does this answer let a procedure go on? -/
def Op.succeeds : (o : Op) → o.Ans → Prop
  | .moveTo _, a => a = .ok ()
  | .write _ _, a => a = .ok ()
  | _, _ => True

theorem moved_of_succeeds {o : Op} {newState : State} (ho : o = .moveTo newState) {a : o.Ans}
    (ha : Op.succeeds o a) : moved ⟨o, some a⟩ = some newState := by
  subst ho
  obtain rfl : a = .ok () := ha
  rfl

/-- The program at a stage, or the return of the procedure. -/
def codeAt (config : Configuration) : Option Stage → Prog Op Op.Ans (Except ExecutionError Unit)
  | some stage => stage.code config
  | none => .ret (.ok ())

/-- **The first step of a procedure.**  It asks for its entry state; if that is refused it
returns the error. -/
theorem Procedure.code_eq (config : Configuration) (procedure : Procedure) :
    ∃ k, procedure.code config = .op (.moveTo procedure.entry) k ∧
      (∀ e, k (.error e) = .ret (.error (.state e))) ∧
      k (.ok ()) = (procedure.start config).code config := by
  cases procedure with
  | ignition => exact ⟨_, rfl, fun _ => rfl, rfl⟩
  | emergencyStop => exact ⟨_, rfl, fun _ => rfl, rfl⟩

/-- `p` performs `o`; if that succeeds it goes on as `next`, and otherwise it returns an
error. -/
def Tries (o : Op) (next p : Prog Op Op.Ans (Except ExecutionError Unit)) : Prop :=
  ∃ k, p = .op o k ∧ (∀ a, Op.succeeds o a → k a = next) ∧
    (∀ a, ¬ Op.succeeds o a → ∃ e, k a = .ret (.error e))

theorem tries_moveTo (newState : State) :
    Tries (.moveTo newState) (.ret (.ok ())) (moveTo newState).run := by
  refine ⟨_, rfl, ?_, ?_⟩
  · rintro a rfl
    rfl
  · intro a ha
    cases a with
    | ok u => exact absurd rfl ha
    | error e => exact ⟨_, rfl⟩

theorem tries_write (driverId : UInt8) (value : Bool) :
    Tries (.write driverId value) (.ret (.ok ())) (write driverId value).run := by
  refine ⟨_, rfl, ?_, ?_⟩
  · rintro a rfl
    rfl
  · intro a ha
    cases a with
    | ok u => exact absurd rfl ha
    | error e => exact ⟨_, rfl⟩

theorem tries_sleep (duration : Duration) :
    Tries (.sleep duration) (.ret (.ok ())) (sleep duration).run :=
  ⟨_, rfl, fun _ _ => rfl, fun _ h => absurd trivial h⟩

/-- The first operation of a sequence is that of its first part. -/
theorem Tries.bind {o : Op} {next : Prog Op Op.Ans (Except ExecutionError Unit)}
    {p : Proc ExecutionError Unit} (h : Tries o next p.run)
    (f : Unit → Proc ExecutionError Unit) :
    Tries o (next.bind (thenRun f)) (p >>= f).run := by
  obtain ⟨k, hp, hok, herr⟩ := h
  refine ⟨fun a => (k a).bind (thenRun f), by rw [run_bind, hp]; rfl, ?_, ?_⟩
  · intro a ha
    exact congrArg (Prog.bind · (thenRun f)) (hok a ha)
  · intro a ha
    obtain ⟨e, he⟩ := herr a ha
    exact ⟨e, congrArg (Prog.bind · (thenRun f)) he⟩

/-- **Every later step.**  At a stage the pending operation is `Stage.call`; if it succeeds
the program goes on at `Stage.after`, and otherwise it returns an error. -/
theorem Stage.code_eq (config : Configuration) (stage : Stage) :
    Tries (stage.call config) (codeAt config (stage.after config)) (stage.code config) := by
  cases stage with
  | preWait => exact (tries_sleep _).bind _
  | preDone => exact (tries_moveTo .ignite).bind _
  | postWait => exact (tries_sleep _).bind _
  | postDone => exact tries_moveTo .standby
  | igniting rest =>
    match rest with
    | [] => exact (tries_moveTo .postIgnite).bind _
    | .actuate driverId value :: rest => exact ((tries_write driverId value).bind _).bind _
    | .sleep duration :: rest => exact ((tries_sleep duration).bind _).bind _
  | stopping rest =>
    match rest with
    | [] => exact tries_moveTo .standby
    | .actuate driverId value :: rest => exact ((tries_write driverId value).bind _).bind _
    | .sleep duration :: rest => exact ((tries_sleep duration).bind _).bind _

/-! ## 2. What a stage's call does to the record -/

/-- The write a call makes is the next one the stage has left. -/
theorem Stage.wrote_initial (config : Configuration) (stage : Stage)
    (a : Option (stage.call config).Ans) :
    [(⟨stage.call config, a⟩ : Call Op.Ans)].filterMap wrote
      <+: actuations (stage.rest config) := by
  have hwrite : ∀ (driverId : UInt8) (value : Bool) (rest : List Action)
      (a : Option (Except LineError Unit)),
      [(⟨.write driverId value, a⟩ : Call Op.Ans)].filterMap wrote
        <+: actuations (.actuate driverId value :: rest) := by
    intro driverId value rest a
    match a with
    | none => exact List.nil_prefix
    | some (.ok ()) => exact List.prefix_append [(driverId, value)] _
    | some (.error .gpio) => exact List.prefix_append [(driverId, value)] _
    | some (.error .poisoned) => exact List.nil_prefix
  cases stage with
  | preWait => exact List.nil_prefix
  | preDone => exact List.nil_prefix
  | postWait => exact List.nil_prefix
  | postDone => exact List.nil_prefix
  | igniting rest =>
    match rest with
    | [] => exact List.nil_prefix
    | .actuate driverId value :: rest => exact hwrite driverId value rest a
    | .sleep _ :: _ => exact List.nil_prefix
  | stopping rest =>
    match rest with
    | [] => exact List.nil_prefix
    | .actuate driverId value :: rest => exact hwrite driverId value rest a
    | .sleep _ :: _ => exact List.nil_prefix

theorem Stage.procedure_after {config : Configuration} {stage stage' : Stage}
    (h : stage.after config = some stage') : stage'.procedure = stage.procedure := by
  cases stage with
  | postDone => cases h
  | igniting rest => cases rest <;> obtain rfl := Option.some.inj h <;> rfl
  | stopping rest =>
    cases rest with
    | nil => cases h
    | cons action rest => obtain rfl := Option.some.inj h; rfl
  | _ => obtain rfl := Option.some.inj h; rfl

/-- A call that succeeds moves its state, or its write, from what is to come to what has
been. -/
theorem Stage.after_spec {config : Configuration} {stage stage' : Stage}
    (h : stage.after config = some stage') {a : (stage.call config).Ans}
    (ha : Op.succeeds _ a) :
    stage.moves ++ [(⟨stage.call config, some a⟩ : Call Op.Ans)].filterMap moved
        = stage'.moves ∧
      [(⟨stage.call config, some a⟩ : Call Op.Ans)].filterMap wrote
          ++ actuations (stage'.rest config)
        = actuations (stage.rest config) := by
  cases stage with
  | preWait => obtain rfl := Option.some.inj h; exact ⟨rfl, rfl⟩
  | preDone => obtain rfl := Option.some.inj h; obtain rfl := ha; exact ⟨rfl, rfl⟩
  | postWait => obtain rfl := Option.some.inj h; exact ⟨rfl, rfl⟩
  | postDone => cases h
  | igniting rest =>
    match rest with
    | [] => obtain rfl := Option.some.inj h; obtain rfl := ha; exact ⟨rfl, rfl⟩
    | .actuate _ _ :: _ => obtain rfl := Option.some.inj h; obtain rfl := ha; exact ⟨rfl, rfl⟩
    | .sleep _ :: _ => obtain rfl := Option.some.inj h; exact ⟨rfl, rfl⟩
  | stopping rest =>
    match rest with
    | [] => cases h
    | .actuate _ _ :: _ => obtain rfl := Option.some.inj h; obtain rfl := ha; exact ⟨rfl, rfl⟩
    | .sleep _ :: _ => obtain rfl := Option.some.inj h; exact ⟨rfl, rfl⟩

/-- A call that succeeds and is no transition leaves the phase and the next transition as they
were; it was a wait, or the first of the actions the stage had left. -/
theorem Stage.after_quiet {config : Configuration} {stage stage' : Stage}
    (h : stage.after config = some stage') {a : (stage.call config).Ans}
    (ha : Op.succeeds _ a)
    (hm : moved ⟨stage.call config, some a⟩ = none) :
    stage'.phase = stage.phase ∧ stage'.next = stage.next ∧
      (stage.pending = stage'.pending ∨
        ∃ action, stage.call config = action.op ∧ stage.pending = action :: stage'.pending) := by
  cases stage with
  | preWait => obtain rfl := Option.some.inj h; exact ⟨rfl, rfl, Or.inl rfl⟩
  | preDone => obtain rfl := ha; cases hm
  | postWait => obtain rfl := Option.some.inj h; exact ⟨rfl, rfl, Or.inl rfl⟩
  | postDone => cases h
  | igniting rest =>
    cases rest with
    | nil => obtain rfl := ha; cases hm
    | cons action rest => obtain rfl := Option.some.inj h; exact ⟨rfl, rfl, Or.inr ⟨_, rfl, rfl⟩⟩
  | stopping rest =>
    cases rest with
    | nil => cases h
    | cons action rest => obtain rfl := Option.some.inj h; exact ⟨rfl, rfl, Or.inr ⟨_, rfl, rfl⟩⟩

/-- A call that succeeds and is a transition leads to the phase it installs. -/
theorem Stage.after_moved {config : Configuration} {stage stage' : Stage}
    (h : stage.after config = some stage') (hm : stage.call config = .moveTo stage.next) :
    stage'.phase = stage.next := by
  cases stage with
  | preDone => obtain rfl := Option.some.inj h; rfl
  | igniting rest =>
    cases rest with
    | nil => obtain rfl := Option.some.inj h; rfl
    | cons action rest => exact absurd hm (action.op_ne_moveTo _)
  | stopping rest =>
    cases rest with
    | nil => cases h
    | cons action rest => exact absurd hm (action.op_ne_moveTo _)
  | preWait => cases hm
  | postWait => cases hm
  | postDone => cases h

/-- From its own phase a stage may make its next transition. -/
theorem Stage.validTransition_next (stage : Stage) :
    validTransition stage.phase stage.next = true := by
  cases stage <;> rfl

/-- A procedure returns by moving the guard to `Standby`. -/
theorem Stage.call_of_after_none {config : Configuration} {stage : Stage}
    (h : stage.after config = none) : stage.call config = .moveTo .standby := by
  cases stage with
  | postDone => rfl
  | igniting rest => cases rest <;> cases h
  | stopping rest =>
    cases rest with
    | nil => rfl
    | cons action rest => cases h
  | _ => cases h

/-- A stage asks for `Stage.next` and for no other state. -/
theorem Stage.next_of_call {config : Configuration} {stage : Stage} {newState : State}
    (h : stage.call config = .moveTo newState) : newState = stage.next := by
  cases stage with
  | igniting rest =>
    cases rest with
    | nil => exact (Op.moveTo.inj h).symm
    | cons action rest => exact absurd h (action.op_ne_moveTo _)
  | stopping rest =>
    cases rest with
    | nil => exact (Op.moveTo.inj h).symm
    | cons action rest => exact absurd h (action.op_ne_moveTo _)
  | preWait => cases h
  | postWait => cases h
  | preDone => exact (Op.moveTo.inj h).symm
  | postDone => exact (Op.moveTo.inj h).symm

/-- A stage about to make a transition has performed its actions. -/
theorem Stage.pending_of_moveTo {config : Configuration} {stage : Stage} {newState : State}
    (h : stage.call config = .moveTo newState) : stage.pending = [] := by
  cases stage with
  | igniting rest =>
    cases rest with
    | nil => rfl
    | cons action rest => exact absurd h (action.op_ne_moveTo _)
  | stopping rest =>
    cases rest with
    | nil => rfl
    | cons action rest => exact absurd h (action.op_ne_moveTo _)
  | _ => rfl

/-- No stage asks for the state a procedure is entered by. -/
theorem Stage.call_ne_entry (config : Configuration) (stage : Stage) (procedure : Procedure) :
    stage.call config ≠ .moveTo procedure.entry := by
  cases stage with
  | igniting rest =>
    cases rest with
    | nil => cases procedure <;> exact nofun
    | cons action rest => exact action.op_ne_moveTo _
  | stopping rest =>
    cases rest with
    | nil => cases procedure <;> exact nofun
    | cons action rest => exact action.op_ne_moveTo _
  | _ => cases procedure <;> exact nofun

/-- A stage moves the guard only to `Stage.next`. -/
theorem Stage.moved_next {config : Configuration} {stage : Stage}
    {a : Option (stage.call config).Ans} {newState : State}
    (h : moved ⟨stage.call config, a⟩ = some newState) :
    newState = stage.next ∧ stage.call config = .moveTo newState := by
  have hmove : ∀ (target : State) (a : Option (Except StateError Unit)),
      moved ⟨.moveTo target, a⟩ = some newState → newState = target := by
    intro target a h
    match a with
    | none => cases h
    | some (.error e) => cases h
    | some (.ok ()) => exact (Option.some.inj h).symm
  cases stage with
  | preWait => cases h
  | preDone => obtain rfl := hmove _ a h; exact ⟨rfl, rfl⟩
  | postWait => cases h
  | postDone => obtain rfl := hmove _ a h; exact ⟨rfl, rfl⟩
  | igniting rest =>
    match rest with
    | [] => obtain rfl := hmove _ a h; exact ⟨rfl, rfl⟩
    | .actuate _ _ :: _ => cases h
    | .sleep _ :: _ => cases h
  | stopping rest =>
    match rest with
    | [] => obtain rfl := hmove _ a h; exact ⟨rfl, rfl⟩
    | .actuate _ _ :: _ => cases h
    | .sleep _ :: _ => cases h

/-! ## 3. The status of an invocation -/

/-- Where an invocation is after the calls `h`, and what those calls were. -/
inductive Status (config : Configuration) : Procedure → List (Call Op.Ans) →
    Prog Op Op.Ans (Except ExecutionError Unit) → Prop
  /-- It has not started. -/
  | fresh (procedure : Procedure) : Status config procedure [] (procedure.code config)
  /-- It is at a stage: it has installed the stage's states, and its writes are its actions
  less the ones the stage has left. -/
  | running {h : List (Call Op.Ans)} (stage : Stage)
      (moves : h.filterMap moved = stage.moves)
      (writes : h.filterMap wrote ++ actuations (stage.rest config)
        = actuations (stage.procedure.actions config)) :
      Status config stage.procedure h (stage.code config)
  /-- It has returned or panicked. -/
  | ended {procedure : Procedure} {h : List (Call Op.Ans)}
      {q : Prog Op Op.Ans (Except ExecutionError Unit)} (finished : q.Finished)
      (writes : h.filterMap wrote <+: actuations (procedure.actions config)) :
      Status config procedure h q

/-- In every status the writes are a prefix of the procedure's actions. -/
theorem Status.writes_initial {config : Configuration} {procedure : Procedure}
    {h : List (Call Op.Ans)} {q : Prog Op Op.Ans (Except ExecutionError Unit)}
    (hs : Status config procedure h q) :
    h.filterMap wrote <+: actuations (procedure.actions config) := by
  cases hs with
  | fresh => exact List.nil_prefix
  | running stage _ hw => exact ⟨_, hw⟩
  | ended _ hw => exact hw

/-- One more call leads from status to status. -/
theorem Status.step {config : Configuration} {procedure : Procedure} {h : List (Call Op.Ans)}
    {o : Op} {k : o.Ans → Prog Op Op.Ans (Except ExecutionError Unit)}
    (hs : Status config procedure h (.op o k)) (a : Option o.Ans) :
    Status config procedure (h ++ [⟨o, a⟩]) (Prog.resume k a) := by
  generalize hq : Prog.op o k = q at hs
  cases hs with
  | fresh =>
    obtain ⟨k', hcode, herr, hok⟩ := procedure.code_eq config
    rw [hcode] at hq
    cases hq
    match a with
    | none => exact .ended trivial List.nil_prefix
    | some (.error e) => exact .ended (by rw [Prog.resume_some, herr]; trivial) List.nil_prefix
    | some (.ok ()) =>
      rw [Prog.resume_some, hok]
      cases procedure with
      | ignition => exact .running .preWait rfl rfl
      | emergencyStop => exact .running (.stopping config.estopSequence) rfl rfl
  | running stage hm hw =>
    obtain ⟨k', hcode, hok, herr⟩ := stage.code_eq config
    rw [hcode] at hq
    cases hq
    -- a call that does not let the procedure go on ends it, whatever it wrote
    have hended : (Prog.resume k' a).Finished →
        Status config stage.procedure (h ++ [⟨stage.call config, a⟩]) (Prog.resume k' a) := by
      intro hf
      refine .ended hf ?_
      rw [List.filterMap_append, ← hw]
      exact (List.prefix_append_right_inj _).mpr (stage.wrote_initial config a)
    cases a with
    | none => exact hended trivial
    | some a =>
      by_cases ha : Op.succeeds _ a
      · cases hafter : stage.after config with
        | none => exact hended (by rw [Prog.resume_some, hok a ha, hafter]; trivial)
        | some stage' =>
          have hp := Stage.procedure_after hafter
          obtain ⟨hmoves, hwrites⟩ := Stage.after_spec hafter ha
          rw [Prog.resume_some, hok a ha, hafter, ← hp]
          refine .running stage' ?_ ?_
          · rw [List.filterMap_append, hm, hmoves]
          · rw [List.filterMap_append, List.append_assoc, hwrites, hw, hp]
      · obtain ⟨err, herr⟩ := herr a ha
        exact hended (by rw [Prog.resume_some, herr]; trivial)
  | ended hf _ => rw [← hq] at hf; exact hf.elim

/-- **There is nothing else**: whatever calls an invocation has made, it has a status. -/
theorem Status.of_steps {config : Configuration} {procedure : Procedure}
    {h : List (Call Op.Ans)} {q : Prog Op Op.Ans (Except ExecutionError Unit)}
    (hs : Prog.Steps (procedure.code config) h q) : Status config procedure h q := by
  induction h using List.reverseRecOn generalizing q with
  | nil =>
    obtain rfl := hs.nil_inv
    exact .fresh procedure
  | append_singleton h c ih =>
    obtain ⟨k, hk, rfl⟩ := hs.concat_inv
    exact (ih hk).step c.ans

end Slonk
