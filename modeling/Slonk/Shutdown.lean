/-
# A server that fails

`run` starts its listeners in a `std::thread::scope`, whose closure then binds the port and accepts
clients.  Each step of the closure that fails makes it return, with a `?`; and then the scope waits for
its threads before `run` can return the error.

The listeners loop until they see `State::Quit`, and nobody moves there.  The closure returns without
doing so, and the commands move the guard to other states only.  So when the closure has returned, the
guard is in some other state, and stays there: no listener's loop is left at its condition
(`failed_server_never_quits`).
-/
import Slonk.Nesting
import Slonk.CommandOrder

namespace Slonk

open Concurrency

variable {α : Type}

/-! ## 1. The closure -/

/-- What the closure performs. -/
inductive ServerOp
  /-- an operation of `Controller.lean` -/
  | act (a : Act)
  /-- `s.spawn(..)` of a listener -/
  | spawnListener (thread : Thread)
  /-- `TcpListener::bind(address)` -/
  | bind
  /-- `listener.local_addr()` -/
  | localAddr
  deriving DecidableEq

@[reducible] def ServerOp.Ans : ServerOp → Type
  | act a => a.Ans
  | spawnListener _ => Unit
  | bind => Except ErrorKind Unit
  | localAddr => Except ErrorKind String

/-- What the outside world decides when one of them runs. -/
structure ServerWorld extends World where
  bind : Except ErrorKind Unit
  localAddr : Except ErrorKind String

/-- Nothing fails, and clients send nothing. -/
def ServerWorld.fine : ServerWorld :=
  { World.fine with bind := .ok (), localAddr := .ok "0.0.0.0:2707" }

/-- The effect of one of them. -/
def ServerOp.exec : (o : ServerOp) → ServerWorld → Controller → Option o.Ans × Controller
  | act a, w, c => a.exec w.toWorld c
  | spawnListener _, _, c => (some (), c)
  | bind, w, c => (some w.bind, c)
  | localAddr, w, c => (some w.localAddr, c)

/-- A program of `Listeners.lean`. -/
def ofActs (p : Prog Act Act.Ans α) : Prog ServerOp ServerOp.Ans α :=
  p.expand fun a => .op (.act a) .ret

/-- A part of the closure. -/
abbrev Serving (α : Type) := Fallible ServerOp ServerOp.Ans RunError α

/-- `s.spawn(..)` -/
def Serving.spawn (thread : Thread) : Serving Unit := .call (ServerOp.spawnListener thread)

/-- `user_log.debug(message)?` and its siblings. -/
def Serving.log (level : LogLevel) (message : UserMessage) : Serving Unit :=
  ExceptT.mk (ofActs (Routine.log [] level message).run)

section Closure

variable (F : Type) [F64 F] (config : Configuration) (profile : Profile)
  (fromSlice : List UInt8 → Option Command)

/-- The log files of a group, one for each sensor. -/
def SensorGroup.logFiles (group : SensorGroup) (groupId : Nat) : List LogFile :=
  (List.range group.size).map fun sensor => ⟨groupId, sensor⟩

/-- The listeners are spawned. -/
def spawnListeners (turns : Nat) : Serving Unit := do
  config.sensorGroups.zipIdx.forM fun (group, groupId) =>
    Serving.spawn (.sensorListen (UInt8.ofNat groupId) (group.logFiles groupId) turns)
  Serving.spawn (.driverStatusListen turns)
  Serving.spawn (.heartbeat turns)

/-- The closure `run` gives to `std::thread::scope`. -/
def scopeClosure (turns : Nat) : Serving (Unit ⊕ Empty) := do
  spawnListeners config turns
  Serving.log .debug (.text "Successfully spawned sensor listener threads.")
  Serving.log .debug (.text "Opening network...")
  .attempt .bind fun r => r.mapError fun _ => .console
  let address ← .attempt .localAddr fun r => r.mapError fun _ => .console
  Serving.log .info (.text s!"Opened TCP listener on address {address}")
  Serving.log .debug (.text "Handling clients...")
  ExceptT.mk (ofActs (accepting config profile fromSlice turns).run)

/-- The operations and the threads they start. -/
def server : Machine ServerOp ServerOp.Ans Controller ServerWorld where
  exec := ServerOp.exec
  fork
    | .act a => ((controller config).fork a).map ofActs
    | .spawnListener thread => some (ofActs (thread.program F config profile fromSlice))
    | _ => none

/-- `run`, once it has set up the controller over driver lines at these levels. -/
def serverOf (turns : Nat) (lines : List Bool) : Sys ServerOp ServerOp.Ans Controller :=
  ⟨.new lines, [(scopeClosure config profile fromSlice turns).run.discard]⟩

end Closure

/-! ## 2. The property -/

section Property

variable (config : Configuration) (profile : Profile) (fromSlice : List UInt8 → Option Command)

/-- After these calls the closure has returned, with an error. -/
def ScopeFailed (turns : Nat) (h : List (Call ServerOp.Ans)) : Prop :=
  ∃ e, Prog.Steps (scopeClosure config profile fromSlice turns).run h (.ret (.error e))

/-- **A failing server shuts its threads down**: when the closure has returned, the guard is in Quit,
or somebody has asked it to move there. -/
def ShutsDown (turns : Nat) (t : List (Event ServerOp.Ans))
    (s : Sys ServerOp ServerOp.Ans Controller) : Prop :=
  ScopeFailed config profile fromSlice turns (history 0 t) →
    s.shared.shared.state.state = .quit ∨ ∃ e ∈ t, e.call.op = .act (.op (.moveTo .quit))

end Property

/-! ## 3. Nobody quits -/

/-- The operations that do not ask the guard to quit. -/
def ServerOp.Stays (o : ServerOp) : Prop := o ≠ .act (.op (.moveTo .quit))

theorem procedure_stays (config : Configuration) (procedure : Procedure) :
    (procedure.code config).All (· ≠ .moveTo .quit) :=
  Procedure.code_all (fun _ => nofun) procedure
    (fun _ hn h => Procedure.ne_quit hn (Op.moveTo.inj h)) fun _ _ _ => nofun

/-- **No command asks the guard to quit.** -/
theorem commandThread_stays (config : Configuration) (cmd : Command) :
    (commandThread config cmd).All (· ≠ .moveTo .quit) := by
  refine commandThread_all ?_ ?_
  · rintro o ho rfl
    exact ho
  · cases cmd with
    | actuate driverId value => exact execute_actuate_all nofun
    | ignition => exact procedure_stays config .ignition
    | emergencyStop => exact procedure_stays config .emergencyStop

/-- A command, or a part of one, over the operations with their locks. -/
theorem expand_stays {p : Prog Op Op.Ans α} (hp : p.All (· ≠ .moveTo .quit)) :
    (p.expand critical).All (· ≠ .op (.moveTo .quit)) := by
  refine hp.expand fun o ho => critical_all ?_ fun h => ho (Act.op.inj h)
  rintro a ha rfl
  exact ha

/-- **No thread asks the guard to quit.** -/
theorem program_stays (F : Type) [F64 F] (config : Configuration) (profile : Profile)
    (fromSlice : List UInt8 → Option Command) (thread : Thread) :
    (thread.program F config profile fromSlice).All (· ≠ .op (.moveTo .quit)) := by
  have hall := thread.program_all F config profile fromSlice
  cases thread with
  | handleCommand cmd => exact expand_stays (commandThread_stays config cmd)
  | emergencyStop => exact expand_stays (procedure_stays config .emergencyStop).discard
  | heartbeat turns =>
    refine hall.mono ?_
    rintro a (h | ⟨value, h⟩) rfl
    · exact h
    · cases h
  | _ =>
    refine hall.mono ?_
    rintro a (h | h) rfl
    · exact h
    · exact h

theorem ofActs_stays {p : Prog Act Act.Ans α} (hp : p.All (· ≠ .op (.moveTo .quit))) :
    (ofActs p).All ServerOp.Stays :=
  hp.expand fun _ ha => ⟨fun h => ha (ServerOp.act.inj h), fun _ => trivial⟩

theorem log_stays (level : LogLevel) (message : UserMessage) :
    (Serving.log level message).run.All ServerOp.Stays := by
  refine ofActs_stays ((writeLog_all ?_ [] level message).bind fun _ => trivial)
  rintro a ha rfl
  exact ha

theorem spawn_stays (thread : Thread) : (Serving.spawn thread).run.All ServerOp.Stays :=
  ⟨nofun, fun _ => trivial⟩

section Runs

variable {F : Type} [F64 F] {config : Configuration} {profile : Profile}
  {fromSlice : List UInt8 → Option Command} {turns : Nat} {lines : List Bool}
  {t : List (Event ServerOp.Ans)} {s : Sys ServerOp ServerOp.Ans Controller}

theorem spawnListeners_stays (config : Configuration) (turns : Nat) :
    (spawnListeners config turns).run.All ServerOp.Stays := by
  refine Fallible.all_bind ?_ fun _ => Fallible.all_bind (spawn_stays _) fun _ => spawn_stays _
  generalize config.sensorGroups.zipIdx = groups
  induction groups with
  | nil => trivial
  | cons group groups ih => exact Fallible.all_bind (spawn_stays _) fun _ => ih

/-- **The closure does not ask the guard to quit**, on any way out. -/
theorem scopeClosure_stays (config : Configuration) (profile : Profile)
    (fromSlice : List UInt8 → Option Command) (turns : Nat) :
    (scopeClosure config profile fromSlice turns).run.All ServerOp.Stays := by
  have haccepting : (accepting config profile fromSlice turns).run.All (· ≠ .op (.moveTo .quit)) := by
    refine (keeps_accepting (R := fun _ _ => True) (A := fun _ _ => True) ?_ (fun _ _ _ => trivial)
      config profile fromSlice ?_ turns).all
    · rintro a ha rfl
      exact ha
    · rintro a ha rfl
      exact ha
  refine Fallible.all_bind (spawnListeners_stays config turns) fun _ => ?_
  refine Fallible.all_bind (log_stays _ _) fun _ => Fallible.all_bind (log_stays _ _) fun _ => ?_
  refine Fallible.all_bind ⟨nofun, fun _ => trivial⟩ fun _ => ?_
  refine Fallible.all_bind ⟨nofun, fun _ => trivial⟩ fun address => ?_
  refine Fallible.all_bind (log_stays _ _) fun _ => Fallible.all_bind (log_stays _ _) fun _ => ?_
  exact ofActs_stays haccepting

theorem server_fork_stays {o : ServerOp} {p : Prog ServerOp ServerOp.Ans Unit}
    (h : (server F config profile fromSlice).fork o = some p) : p.All ServerOp.Stays := by
  cases o with
  | act a =>
    obtain ⟨q, hq, rfl⟩ := Option.map_eq_some_iff.mp h
    refine ofActs_stays ?_
    rcases controller_fork hq with ⟨cmd, rfl⟩ | rfl
    · exact program_stays F config profile fromSlice (.handleCommand cmd)
    · exact program_stays F config profile fromSlice .emergencyStop
  | spawnListener thread =>
    obtain rfl := Option.some.inj h
    exact ofActs_stays (program_stays F config profile fromSlice thread)
  | bind => cases h
  | localAddr => cases h

/-- **In no run** is the guard asked to quit. -/
theorem stays_of_run
    (hrun : Run (server F config profile fromSlice) (serverOf config profile fromSlice turns lines) t s) :
    ∀ e ∈ t, e.call.op.Stays := by
  refine (hrun.all (P := ServerOp.Stays) (fun _ _ _ hp => server_fork_stays hp) ?_).1
  intro p hp
  obtain rfl := List.mem_singleton.mp hp
  exact (scopeClosure_stays config profile fromSlice turns).discard

/-- So it is never in Quit. -/
theorem not_quit_of_exec {o : ServerOp} (ho : o.Stays) (w : ServerWorld) {c : Controller}
    (h : c.shared.state.state ≠ .quit) : (o.exec w c).2.shared.state.state ≠ .quit := by
  cases o with
  | act a =>
    cases a with
    | op o =>
      by_cases hmove : ∃ newState, o = .moveTo newState
      · obtain ⟨newState, rfl⟩ := hmove
        exact Guard.moveTo_ne_quit h fun heq => ho (by rw [heq])
      · show (exec o w.toEnv c.shared).2.state.state ≠ .quit
        rw [exec_state fun newState hn => hmove ⟨newState, hn⟩]
        exact h
    | unwind guards =>
      have hstate : (guards.foldl Controller.poison c).shared.state.state = c.shared.state.state :=
        Controller.foldl_poison (f := fun c => c.shared.state.state) (fun _ l => by cases l <;> rfl)
          guards c
      exact hstate.trans_ne h
    | readLine driverIdx =>
      simp only [ServerOp.exec, Act.exec]
      split <;> exact h
    | heartbeat value =>
      simp only [ServerOp.exec, Act.exec]
      split <;> exact h
    | _ => exact h
  | _ => exact h

theorem not_quit_of_run
    (hrun : Run (server F config profile fromSlice) (serverOf config profile fromSlice turns lines) t s) :
    s.shared.shared.state.state ≠ .quit := by
  induction hrun with
  | refl => exact nofun
  | @tail m m' t e hr hs ih =>
    obtain ⟨w, -, hshared⟩ := hs.exec
    rw [hshared]
    exact not_quit_of_exec (stays_of_run (hr.tail hs) e (by simp)) w ih

end Runs

/-! ## 4. The condition -/

/-- **A failing server never shuts its threads down.**  Whichever step of the closure has made it
return, the guard is not in Quit, nobody has asked it to move there, and no listener has seen it
there. -/
theorem failed_server_never_quits (F : Type) [F64 F] (config : Configuration) (profile : Profile)
    (fromSlice : List UInt8 → Option Command) (turns : Nat) (lines : List Bool)
    (t : List (Event ServerOp.Ans)) (s : Sys ServerOp ServerOp.Ans Controller)
    (hrun : Run (server F config profile fromSlice) (serverOf config profile fromSlice turns lines) t s)
    (hfailed : ScopeFailed config profile fromSlice turns (history 0 t)) :
    ¬ ShutsDown config profile fromSlice turns t s ∧
      ∀ e ∈ t, e.call ≠ ⟨.act .status, some (.ok .quit)⟩ := by
  constructor
  · intro hshuts
    rcases hshuts hfailed with hquit | ⟨e, he, hop⟩
    · exact not_quit_of_run hrun hquit
    · exact stays_of_run hrun e he hop
  · intro e he hcall
    obtain ⟨t₁, t₂, rfl⟩ := List.append_of_mem he
    obtain ⟨m, m', hmoment⟩ := hrun.moment
    obtain ⟨w, hans, -⟩ := hmoment.step.exec
    have hstatus : m.shared.shared.state.status = .ok .quit := by
      obtain ⟨tid, o, x⟩ := e
      cases hcall
      exact (Option.some.inj hans).symm
    have hquit : m.shared.shared.state.state = .quit := by
      unfold Guard.status at hstatus
      split at hstatus
      · cases hstatus
      · exact Except.ok.inj hstatus
    exact not_quit_of_run hmoment.before hquit

/-- The closure has returned with an error, in a run of one driver and no sensors. -/
def scopeHasFailed (turns : Nat) (t : List (Event ServerOp.Ans)) : Bool :=
  ((scopeClosure (.oneDriver [] []) .release (fun _ => none) turns).run.replay (history 0 t)).any
    (Prog.returns fun r => !r.isOk)

theorem scopeFailed_of_scopeHasFailed {turns : Nat} {t : List (Event ServerOp.Ans)}
    (h : scopeHasFailed turns t = true) :
    ScopeFailed (.oneDriver [] []) .release (fun _ => none) turns (history 0 t) := by
  obtain ⟨r, hs, hr⟩ := exists_returns h
  cases r with
  | ok a => cases hr
  | error e => exact ⟨e, hs⟩

/-- **A client that is gone** before its address is asked for: the port was open, and all that is left
of the server are its listeners, which do not see Quit. -/
theorem gone_client_never_quits : ∃ t s,
    Run (server ℚ (.oneDriver [] []) .release fun _ => none)
      (serverOf (.oneDriver [] []) .release (fun _ => none) 1 [false]) t s ∧
    ScopeFailed (.oneDriver [] []) .release (fun _ => none) 1 (history 0 t) ∧
    ¬ ShutsDown (.oneDriver [] []) .release (fun _ => none) 1 t s ∧
    ∀ e ∈ t, e.call ≠ ⟨.act .status, some (.ok .quit)⟩ := by
  obtain ⟨t, s, hrun, hfailed⟩ := exists_guardedRun
    (M := server ℚ (.oneDriver [] []) .release fun _ => none) (C := fun _ _ _ => true)
    (G := fun _ _ _ => True) (fun _ _ _ _ => trivial)
    (List.replicate 18 (0, { ServerWorld.fine with peerAddr := .error .connectionReset }))
    (s := serverOf (.oneDriver [] []) .release (fun _ => none) 1 [false])
    (P := fun t _ => scopeHasFailed 1 t) (by decide +kernel)
  have hscope := scopeFailed_of_scopeHasFailed hfailed
  exact ⟨t, s, hrun.run, hscope, failed_server_never_quits ℚ (.oneDriver [] []) .release
    (fun _ => none) 1 [false] t s hrun.run hscope⟩

/-- **A port that is taken**: the closure returns from `bind` with its error, and the guard is in
standby. -/
theorem taken_port_never_quits : ∃ t s,
    Run (server ℚ (.oneDriver [] []) .release fun _ => none)
      (serverOf (.oneDriver [] []) .release (fun _ => none) 1 [false]) t s ∧
    ¬ ShutsDown (.oneDriver [] []) .release (fun _ => none) 1 t s := by
  obtain ⟨t, s, hrun, hp⟩ := exists_guardedRun
    (M := server ℚ (.oneDriver [] []) .release fun _ => none) (C := fun _ _ _ => true)
    (G := fun _ _ _ => True) (fun _ _ _ _ => trivial)
    (List.replicate 9 (0, { ServerWorld.fine with bind := .error (.other "address in use") }))
    (s := serverOf (.oneDriver [] []) .release (fun _ => none) 1 [false])
    (P := fun t s => scopeHasFailed 1 t && decide (s.shared.shared.state.state = .standby) &&
      t.all fun e => decide (e.call.op ≠ .act (.op (.moveTo .quit))))
    (by decide +kernel)
  simp only [Bool.and_eq_true, decide_eq_true_eq, List.all_eq_true] at hp
  obtain ⟨⟨hfailed, hstate⟩, hops⟩ := hp
  refine ⟨t, s, hrun.run, fun hshuts => ?_⟩
  rcases hshuts (scopeFailed_of_scopeHasFailed hfailed) with hquit | ⟨e, he, hop⟩
  · rw [hstate] at hquit
    cases hquit
  · exact hops e he hop

end Slonk
