/-
# Commands around the procedures

`handle_command` logs, executes, and logs again.  This file takes it apart: a `prologue` and an
`epilogue` that touch nothing but the clock and the logs (`Op.Logs`), and between them the match
on the command.  What a command can do to the guard and the drivers is what that match does.

`commands config cmds shared` is any number of commands handled at once, one thread each;
`IgnitionPlace` says where the thread of an `Ignition` can be.
-/
import Slonk.Invocations

namespace Slonk

open Concurrency

variable {config : Configuration} {cmd : Command} {s s' : System} {e : Event Op.Ans} {i : Nat}
  {t : Trace}

/-! ## 1. The two ends of `handle_command` -/

/-- The operations that concern only the clock and the logs. -/
def Op.Logs : Op → Prop
  | .now | .logCommand _ _ _ | .userLog _ _ => True
  | _ => False

/-- What `handle_command` does before its `match`. -/
def prologue (cmd : Command) : Proc ExecutionError Unit := do
  let time ← now
  info (.executing cmd)
  logCommand time .request cmd

/-- What `handle_command` does after its `match`. -/
def epilogue (cmd : Command) : Proc ExecutionError Unit := do
  let time ← now
  logCommand time .finish cmd

theorem handleCommand_eq (config : Configuration) (cmd : Command) :
    handleCommand config cmd
      = prologue cmd >>= fun _ => execute config cmd >>= fun _ => epilogue cmd := by
  simp only [handleCommand, prologue, epilogue, bind_assoc]

theorem logCommand_all {P : Op → Prop} (hlog : ∀ o, Op.Logs o → P o) (time : Nat) (tag : LogTag)
    (cmd : Command) : (logCommand time tag cmd).run.All P := by
  refine ⟨hlog _ trivial, fun a => ?_⟩
  match a with
  | .ok () => trivial
  | .error .poisoned => trivial
  | .error .io => exact ⟨hlog _ trivial, fun _ => trivial⟩

theorem prologue_all {P : Op → Prop} (hlog : ∀ o, Op.Logs o → P o) (cmd : Command) :
    (prologue cmd).run.All P :=
  ⟨hlog _ trivial, fun time => ⟨hlog _ trivial, fun _ => logCommand_all hlog time .request cmd⟩⟩

theorem epilogue_all {P : Op → Prop} (hlog : ∀ o, Op.Logs o → P o) (cmd : Command) :
    (epilogue cmd).run.All P :=
  ⟨hlog _ trivial, fun time => logCommand_all hlog time .finish cmd⟩

/-- Every operation of a command is a log operation or one of its `match`. -/
theorem handleCommand_all {P : Op → Prop} (hlog : ∀ o, Op.Logs o → P o)
    (hexec : (execute config cmd).run.All P) : (handleCommand config cmd).run.All P := by
  rw [handleCommand_eq]
  refine Prog.All.bind (f := thenRun _) (prologue_all hlog cmd) fun a => ?_
  cases a with
  | error e => trivial
  | ok u =>
    refine Prog.All.bind (f := thenRun _) hexec fun a => ?_
    cases a with
    | error e => trivial
    | ok u => exact epilogue_all hlog cmd

/-- What is left of `handle_command` once its `match` has returned. -/
def afterExecute (cmd : Command) : Except ExecutionError Unit → Prog Op Op.Ans Unit :=
  fun r => (thenRun (fun _ => epilogue cmd) r).discard

theorem afterExecute_all {P : Op → Prop} (hlog : ∀ o, Op.Logs o → P o) (cmd : Command)
    (r : Except ExecutionError Unit) : (afterExecute cmd r).All P := by
  cases r with
  | error e => trivial
  | ok u => exact (epilogue_all hlog cmd).discard

/-- What is left of `handle_command` once its prologue has returned. -/
def afterPrologue (config : Configuration) (cmd : Command) :
    Except ExecutionError Unit → Prog Op Op.Ans Unit
  | .ok () => (execute config cmd).run.bind (afterExecute cmd)
  | .error _ => .ret ()

theorem handleCommand_discard (config : Configuration) (cmd : Command) :
    (handleCommand config cmd).run.discard
      = (prologue cmd).run.bind (afterPrologue config cmd) := by
  rw [handleCommand_eq, run_bind, Prog.discard, Prog.bind_assoc]
  congr 1
  funext r
  cases r with
  | error e => rfl
  | ok u => exact Prog.bind_assoc _ _ _

/-- A log operation touches neither the guard nor the drivers. -/
theorem exec_logs {o : Op} (h : o.Logs) (env : Env) (shared : Shared) :
    (exec o env shared).2.state = shared.state ∧
      (exec o env shared).2.driverLines = shared.driverLines :=
  ⟨exec_state (by rintro _ rfl; exact h) env shared,
    exec_driverLines (by rintro _ _ rfl; exact h) env shared⟩

theorem moved_of_logs {c : Call Op.Ans} (h : c.op.Logs) : moved c = none := by
  obtain ⟨o, a⟩ := c
  cases o with
  | moveTo newState => exact h.elim
  | _ => rfl

theorem wrote_of_logs {c : Call Op.Ans} (h : c.op.Logs) : wrote c = none := by
  obtain ⟨o, a⟩ := c
  cases o with
  | write driverId value => exact h.elim
  | _ => rfl

/-! ## 2. Many commands at once -/

/-- The commands `cmds`, each handled by a thread of its own. -/
def commands (config : Configuration) (cmds : List Command) (shared : Shared) : System :=
  ⟨shared, cmds.map fun cmd => (handleCommand config cmd).run.discard⟩

/-- The thread of the `i`-th command, at the start. -/
theorem commands_thread {cmds : List Command} {shared : Shared} (h : cmds[i]? = some cmd) :
    (commands config cmds shared).threads[i]?
      = some ((prologue cmd).run.bind (afterPrologue config cmd)) := by
  rw [← handleCommand_discard]
  simp [commands, h]

/-- What holds of every operation of a command holds of the one its thread performs next. -/
theorem commands_next {cmds : List Command} {shared : Shared} {m m' : System} {P : Op → Prop}
    (hall : (handleCommand config cmd).run.All P)
    (hrun : Run (machine config) (commands config cmds shared) t m)
    (hs : (machine config).StepTo m e m') (hi : cmds[e.tid]? = some cmd) : P e.call.op := by
  have hp : (commands config cmds shared).threads[e.tid]?
      = some (handleCommand config cmd).run.discard := by
    rw [commands_thread hi, handleCommand_discard]
  obtain ⟨q, hq, hsteps⟩ := hrun.steps hp
  obtain ⟨k, hk, -⟩ := hs.self
  obtain rfl := Option.some.inj (hq.symm.trans hk)
  exact (hsteps.all hall.discard).2.1

/-- Where the thread of an `Ignition` command can be after the calls `h`. -/
inductive IgnitionPlace (config : Configuration) (h : List (Call Op.Ans)) :
    Prog Op Op.Ans Unit → Prop
  /-- It has not entered `ignition` yet. -/
  | waiting (p : Prog Op Op.Ans (Except ExecutionError Unit)) (logs : p.All Op.Logs)
      (moves : h.filterMap moved = []) (writes : h.filterMap wrote = []) :
      IgnitionPlace config h (p.bind (afterPrologue config .ignition))
  /-- It is at a stage of `ignition`. -/
  | running (stage : Stage) (kind : stage.procedure = .ignition)
      (moves : h.filterMap moved = stage.moves)
      (writes : h.filterMap wrote ++ actuations (stage.rest config)
        = actuations config.ignitionSequence) :
      IgnitionPlace config h ((stage.code config).bind (afterExecute .ignition))
  /-- `ignition` has returned or panicked. -/
  | ended {q : Prog Op Op.Ans Unit} (logs : q.All Op.Logs)
      (writes : h.filterMap wrote <+: actuations config.ignitionSequence) :
      IgnitionPlace config h q

/-- Calls that only log change no record. -/
theorem filterMap_of_logs {α : Type} {g : Call Op.Ans → Option α}
    (hg : ∀ {c : Call Op.Ans}, c.op.Logs → g c = none) {h : List (Call Op.Ans)}
    (hlogs : ∀ c ∈ h, Op.Logs c.op) : h.filterMap g = [] :=
  List.filterMap_eq_nil_iff.mpr fun c hc => hg (hlogs c hc)

/-- **There is no other place.** -/
theorem IgnitionPlace.of_steps {h : List (Call Op.Ans)} {q : Prog Op Op.Ans Unit}
    (hs : Prog.Steps ((prologue .ignition).run.bind (afterPrologue config .ignition)) h q) :
    IgnitionPlace config h q := by
  have hpro := prologue_all (P := Op.Logs) (fun _ => id) .ignition
  rcases hs.bind_cases with ⟨p, hp, rfl⟩ | ⟨r, h₁, h₂, hp, hrest, rfl⟩
  · obtain ⟨hlogs, hall⟩ := hp.all hpro
    exact .waiting p hall (filterMap_of_logs moved_of_logs hlogs)
      (filterMap_of_logs wrote_of_logs hlogs)
  · obtain ⟨hlogs, -⟩ := hp.all hpro
    have hm₁ : h₁.filterMap moved = [] := filterMap_of_logs moved_of_logs hlogs
    have hw₁ : h₁.filterMap wrote = [] := filterMap_of_logs wrote_of_logs hlogs
    match r with
    | .error e =>
      obtain ⟨rfl, rfl⟩ := hrest.of_finished trivial
      exact .ended trivial (by rw [List.append_nil, hw₁]; exact List.nil_prefix)
    | .ok () =>
      have hcode : Prog.Steps ((Procedure.ignition.code config).bind (afterExecute .ignition))
          h₂ q := hrest
      rcases hcode.bind_cases with ⟨p, hp, rfl⟩ | ⟨r, h₂, h₃, hp, htail, rfl⟩
      · have hst := Status.of_steps hp
        generalize hkind : Procedure.ignition = kind at hst
        cases hst with
        | fresh =>
          subst hkind
          refine .waiting (.ret (.ok ())) trivial ?_ ?_
          · rw [List.append_nil, hm₁]
          · rw [List.append_nil, hw₁]
        | running stage hm hw =>
          refine .running stage hkind.symm ?_ ?_
          · rw [List.filterMap_append, hm₁, hm]; rfl
          · rw [List.filterMap_append, hw₁, List.nil_append, hw, ← hkind]; rfl
        | ended hf hw =>
          refine .ended ?_ ?_
          · cases p with
            | ret r => exact afterExecute_all (fun _ => id) .ignition r
            | panic => trivial
            | op o k => exact hf.elim
          · rw [List.filterMap_append, hw₁, List.nil_append]
            subst hkind
            exact hw
      · have hw := (Status.of_steps hp).writes_initial
        obtain ⟨hlogs₃, hall⟩ := htail.all (afterExecute_all (P := Op.Logs) (fun _ => id) _ r)
        refine .ended hall ?_
        rw [List.filterMap_append, List.filterMap_append, hw₁,
          filterMap_of_logs wrote_of_logs hlogs₃, List.nil_append, List.append_nil]
        exact hw

/-- An ignition that was let in does not ask for `PreIgnite` again. -/
theorem ignition_start_all (config : Configuration) :
    ((Procedure.ignition.start config).code config).All (· ≠ .moveTo .preIgnite) := by
  refine Stage.code_all (fun _ => nofun) (fun X hX => ?_) _ nofun
  rintro ⟨⟩
  simp at hX

/-- **A refused ignition makes no other call of consequence.** -/
theorem refused_calls {h : List (Call Op.Ans)} {q : Prog Op Op.Ans Unit}
    (hs : Prog.Steps ((prologue .ignition).run.bind (afterPrologue config .ignition)) h q)
    {err : StateError} (href : ⟨.moveTo .preIgnite, some (.error err)⟩ ∈ h) :
    ∀ c ∈ h, c.op.Logs ∨ ∃ err, c = ⟨.moveTo .preIgnite, some (.error err)⟩ := by
  have hpro := prologue_all (P := Op.Logs) (fun _ => id) .ignition
  rcases hs.bind_cases with ⟨p, hp, rfl⟩ | ⟨r, h₁, h₂, hp, hrest, rfl⟩
  · exact fun c hc => Or.inl ((hp.all hpro).1 c hc)
  · have hlogs := (hp.all hpro).1
    match r with
    | .error e =>
      obtain ⟨rfl, -⟩ := hrest.of_finished trivial
      exact fun c hc => Or.inl (hlogs c (by simpa using hc))
    | .ok () =>
      have hcode : Prog.Steps ((Procedure.ignition.code config).bind (afterExecute .ignition))
          h₂ q := hrest
      obtain ⟨k, heq, herr, hok⟩ := Procedure.ignition.code_eq config
      rw [heq, Prog.bind_op] at hcode
      cases hcode with
      | refl => exact fun c hc => Or.inl (hlogs c (by simpa using hc))
      | @head _ _ a h₃ _ hrest =>
        match a with
        | none =>
          obtain ⟨rfl, -⟩ := hrest.of_finished trivial
          rcases List.mem_append.mp href with href | href
          · exact (hlogs _ href).elim
          · cases List.mem_singleton.mp href
        | some (.error e) =>
          rw [Prog.resume_some, herr] at hrest
          obtain ⟨rfl, -⟩ := hrest.of_finished trivial
          intro c hc
          rcases List.mem_append.mp hc with hc | hc
          · exact Or.inl (hlogs c hc)
          · exact Or.inr ⟨e, List.mem_singleton.mp hc⟩
        | some (.ok ()) =>
          rw [Prog.resume_some, hok] at hrest
          have hall := Prog.All.bind (ignition_start_all config) fun r =>
            afterExecute_all (P := (· ≠ .moveTo .preIgnite)) (by rintro _ ho rfl; exact ho)
              .ignition r
          have hne := (hrest.all hall).1
          rcases List.mem_append.mp href with href | href
          · exact (hlogs _ href).elim
          · rcases List.mem_cons.mp href with heq | href
            · cases heq
            · exact absurd rfl (hne _ href)

/-! ## 3. Commands that stay in range -/

/-- The command does not name a driver line beyond `n`, and neither does a sequence it runs. -/
def CommandInRange (config : Configuration) (n : Nat) : Command → Prop
  | .actuate driverId _ => driverId.toNat < n
  | .ignition => ∀ driverId value, .actuate driverId value ∈ config.ignitionSequence →
      driverId.toNat < n
  | .emergencyStop => ∀ driverId value, .actuate driverId value ∈ config.estopSequence →
      driverId.toNat < n

/-- What every operation of such a command is like. -/
theorem execute_inRange {n : Nat} (h : CommandInRange config n cmd) :
    (execute config cmd).run.All
      fun o => InRange n o ∧ (machine config).fork o = none ∧ o ≠ .moveTo .quit := by
  have hmove : ∀ newState, newState ≠ State.quit →
      InRange n (.moveTo newState) ∧ (machine config).fork (.moveTo newState) = none ∧
        Op.moveTo newState ≠ .moveTo .quit :=
    fun newState hn => ⟨trivial, rfl, fun h => hn (Op.moveTo.inj h)⟩
  cases cmd with
  | actuate driverId value =>
    simp only [execute]
    split
    · trivial
    · refine ⟨⟨h, rfl, nofun⟩, fun a => ?_⟩
      cases a <;> trivial
  | ignition =>
    exact Procedure.code_all (fun _ => ⟨trivial, rfl, nofun⟩) .ignition
      (fun X hX => hmove X (Procedure.ne_quit hX))
      fun d v hm => ⟨h d v hm, rfl, nofun⟩
  | emergencyStop =>
    exact Procedure.code_all (fun _ => ⟨trivial, rfl, nofun⟩) .emergencyStop
      (fun X hX => hmove X (Procedure.ne_quit hX))
      fun d v hm => ⟨h d v hm, rfl, nofun⟩

theorem handleCommand_inRange {n : Nat} (h : CommandInRange config n cmd) :
    (handleCommand config cmd).run.All
      fun o => InRange n o ∧ (machine config).fork o = none ∧ o ≠ .moveTo .quit := by
  refine handleCommand_all ?_ (execute_inRange h)
  intro o ho
  cases o with
  | now => exact ⟨trivial, rfl, nofun⟩
  | logCommand time tag cmd => exact ⟨trivial, rfl, nofun⟩
  | userLog level message => exact ⟨trivial, rfl, nofun⟩
  | _ => exact ho.elim

/-- **Threads whose operations are in range keep the state healthy.** -/
theorem healthy_run {n : Nat} {s₀ : System}
    (hall : ∀ p ∈ s₀.threads, p.All fun o => InRange n o ∧ (machine config).fork o = none)
    (h₀ : Healthy n s₀.shared) (hrun : Run (machine config) s₀ t s) : Healthy n s.shared := by
  have hfork : ∀ o p, (InRange n o ∧ (machine config).fork o = none) →
      (machine config).fork o = some p →
      p.All fun o => InRange n o ∧ (machine config).fork o = none := by
    intro o p ho hp
    rw [ho.2] at hp
    cases hp
  induction hrun with
  | refl => exact h₀
  | @tail m m' t e hrun hs ih =>
    obtain ⟨k, hk, -⟩ := hs.self
    have ho := ((hrun.all hfork hall).2 _ (List.mem_of_getElem? hk)).1
    obtain ⟨env, -, hsh⟩ := hs.exec
    rw [hsh]
    exact (exec_healthy env ho.1 ih).2

/-- Every thread of a reachable state handles one of the commands. -/
theorem commands_cmd {n : Nat} {cmds : List Command} {shared : Shared}
    (hc : ∀ cmd ∈ cmds, CommandInRange config n cmd)
    (hrun : Run (machine config) (commands config cmds shared) t s)
    {p : Prog Op Op.Ans Unit} (hp : s.threads[i]? = some p) : ∃ cmd, cmds[i]? = some cmd := by
  have hn : NoFork (machine config) (commands config cmds shared) := by
    intro p hp
    obtain ⟨cmd, hcmd, rfl⟩ := List.mem_map.mp hp
    exact (handleCommand_inRange (hc cmd hcmd)).discard.mono fun o h => h.2.1
  obtain ⟨p', hp', -⟩ := hn.steps hrun hp
  rw [commands, List.getElem?_map] at hp'
  obtain ⟨cmd, hcmd, -⟩ := Option.map_eq_some_iff.mp hp'
  exact ⟨cmd, hcmd⟩

/-- Commands in range keep the state healthy. -/
theorem commands_healthy {n : Nat} {cmds : List Command} {shared : Shared}
    (hc : ∀ cmd ∈ cmds, CommandInRange config n cmd) (h₀ : Healthy n shared)
    (hrun : Run (machine config) (commands config cmds shared) t s) : Healthy n s.shared := by
  refine healthy_run ?_ h₀ hrun
  intro p hp
  obtain ⟨cmd, hcmd, rfl⟩ := List.mem_map.mp hp
  exact (handleCommand_inRange (hc cmd hcmd)).discard.mono fun o h => ⟨h.1, h.2.1⟩

end Slonk
