/-
# Critical sections are atomic

Half of this development looks at the procedures with each critical section as one operation
(`machine`), the other half at the controller lock by lock, with its listeners (`controller`).  The
second refines the first, so what the first half says of the guard, the driver lines and the command
log holds of the second as well:

* `effect` is the call at which a critical section takes effect: the operation between the taking of
  the lock and the giving back.  `critical o` implements `o` (`critical_implements`), hence the routine
  of a command implements the thread of a command;
* a listener takes no effect at all: what it performs leaves the guard, the lines and the command log
  alone (`Act.Quiet`);
* `Agree` relates the two shared states, and each step keeps it.

The stops that `sensor_listen` starts on the way have no counterpart in `machine`, where nothing starts
them; they stand ready from the beginning instead, and how many there are depends on the run.  The
thread that serves the clients is left out: its commands are threads of their own, in any number.
-/
import Slonk.Poisoning
import Slonk.Concurrency.Obeys
import Slonk.Concurrency.Refinement

namespace Slonk

open Concurrency

/-! ## 1. Effects -/

/-- The critical section a call is the effect of. -/
def effect : Call Act.Ans → Option (Call Op.Ans)
  | ⟨.op o, x⟩ => some ⟨o, x⟩
  | _ => none

/-- What an operation answers when no thread panics with a steady lock in its hand. -/
def Orderly : (a : Act) → Option a.Ans → Prop
  | .acquire .userLog _, x => x = some false
  | .acquire .dashChannel _, x => x = some false
  | .acquire _ _, x => x ≠ none
  | .release _, x => x ≠ none
  | _, _ => True

theorem acquire_answers {l : Lock} {mode : Mode} : ¬ Orderly (.acquire l mode) none := by
  intro h
  cases l with
  | userLog => cases h
  | dashChannel => cases h
  | _ => exact h rfl

theorem release_answers {l : Lock} : ¬ Orderly (.release l) none := fun h => h rfl

/-- A block under a lock. -/
theorem implements_guarded {α : Type} {l : Lock} {mode : Mode} {p' : Bool → Prog Act Act.Ans α}
    {p : Prog Op Op.Ans α}
    (hp : ∀ poisoned, Orderly (.acquire l mode) (some poisoned) →
      (p' poisoned).Implements effect Orderly p) :
    (Prog.guarded (.acquire l mode) p' (.release l)).Implements effect Orderly p :=
  .guarded acquire_answers (fun _ => rfl) hp release_answers fun _ => rfl

theorem perform_implements (o : Op) :
    (perform o).Implements effect Orderly (.op o .ret) :=
  .cons_commit (g := id) (fun x => by rw [Option.map_id]; rfl) fun _ _ => rfl

theorem writeLog_implements (guards : List Lock) (level : LogLevel) (message : UserMessage) :
    (writeLog guards level message).Implements effect Orderly
      (.op (.userLog level message) .ret) := by
  refine implements_guarded fun poisoned h => ?_
  obtain rfl : poisoned = false := Option.some.inj h
  exact perform_implements _

/-- A guard given back after the effect. -/
theorem implements_release {α : Type} {p' : Prog Act Act.Ans α} {p : Prog Op Op.Ans α}
    (hp : p'.Implements effect Orderly p) (l : Lock) :
    (p'.bind fun r => .op (.release l) fun _ => .ret r).Implements effect Orderly p := by
  have := hp.bind (g := fun r => .op (.release l) fun _ => .ret r) (f := .ret) fun r =>
    .cons_silent release_answers (fun _ => rfl) fun _ _ => rfl
  rwa [Prog.bind_pure_right] at this

/-- **A critical section implements its operation.** -/
theorem critical_implements (o : Op) :
    (critical o).Implements effect Orderly (.op o .ret) := by
  cases o with
  | moveTo newState => exact implements_guarded fun _ _ => perform_implements _
  | write driverId value => exact implements_guarded fun _ _ => perform_implements _
  | sleep duration => exact perform_implements _
  | now => exact perform_implements _
  | spawn cmd => exact perform_implements _
  | send message =>
    refine implements_guarded fun poisoned h => ?_
    obtain rfl : poisoned = false := Option.some.inj h
    exact implements_guarded fun _ _ => perform_implements _
  | logCommand time tag cmd =>
    refine .cons_silent acquire_answers (fun _ => rfl) fun _ _ => ?_
    -- when the writer fails, the guard is given back after the warning
    refine .cons_commit (g := id) (fun x => by rw [Option.map_id]; rfl) fun r _ => ?_
    match r with
    | .ok () => exact .cons_silent release_answers (fun _ => rfl) fun _ _ => rfl
    | .error .poisoned => exact .cons_silent release_answers (fun _ => rfl) fun _ _ => rfl
    | .error .io => exact rfl
  | userLog level message =>
    simp only [critical]
    split
    · exact implements_release (writeLog_implements _ _ _) _
    · exact writeLog_implements _ _ _

/-- The operations that take or give back a lock, or panic with it. -/
def Act.Locks : Act → Prop
  | acquire _ _ | release _ | unwind _ => True
  | _ => False

/-- **A protocol of the critical sections, lock by lock.**  An answer that a critical section gives
without its effect, as the dashboard channel is poisoned, is one that the section may give, and leaves
the protocol where it is. -/
structure Lifts {Γ : Type} (T : Protocol Op Op.Ans Γ) (A : (o : Op) → o.Ans → Prop)
    (T' : Protocol Act Act.Ans Γ) (A' : (a : Act) → a.Ans → Prop) : Prop where
  permits : ∀ γ o, T.permits γ o → T'.permits γ (.op o)
  next : ∀ γ o x, T'.next γ ⟨.op o, x⟩ = T.next γ ⟨o, x⟩
  silent : ∀ γ a, a.Locks → T'.permits γ a ∧ ∀ x, T'.next γ ⟨a, x⟩ = γ
  aborts : ∀ γ, T.aborts γ → T'.aborts γ
  answers : ∀ o a, A' (.op o) a → A o a
  poisoned : A' (.acquire .dashChannel .exclusive) true → ∀ γ message,
    A (.send message) (.error .poison) ∧ T.next γ ⟨.send message, some (.error .poison)⟩ = γ

section Lifts

variable {Γ : Type} {T : Protocol Op Op.Ans Γ} {A : (o : Op) → o.Ans → Prop}
  {T' : Protocol Act Act.Ans Γ} {A' : (a : Act) → a.Ans → Prop} (hT : Lifts T A T' A')

include hT

/-- A lock taken for a block. -/
theorem Lifts.guarded {α : Type} {l : Lock} {mode : Mode} {p : Bool → Prog Act Act.Ans α}
    {γ : Γ} {Q : α → Γ → Prop}
    (hp : ∀ poisoned, A' (.acquire l mode) poisoned → (p poisoned).Follows T' A' γ Q) :
    (Prog.guarded (.acquire l mode) p (.release l)).Follows T' A' γ Q := by
  have hacquire := hT.silent γ (.acquire l mode) trivial
  refine .guarded (P := Q) hacquire.1 (fun poisoned ha => ?_) fun r γ' h => ?_
  · rw [hacquire.2]
    exact hp poisoned ha
  · have hrelease := hT.silent γ' (.release l) trivial
    refine ⟨hrelease.1, fun _ _ => ?_⟩
    rw [hrelease.2]
    exact h

theorem Lifts.perform {o : Op} {γ : Γ} (h : T.permits γ o) :
    (Slonk.perform o).Follows T' A' γ fun a γ' => A o a ∧ γ' = T.next γ ⟨o, some a⟩ :=
  ⟨hT.permits γ o h, fun a ha => ⟨hT.answers o a ha, hT.next γ o (some a)⟩⟩

theorem Lifts.writeLog {guards : List Lock} {level : LogLevel} {message : UserMessage} {γ : Γ}
    (h : T.permits γ (.userLog level message)) :
    (Slonk.writeLog guards level message).Follows T' A' γ fun a γ' =>
      A (.userLog level message) a ∧ γ' = T.next γ ⟨.userLog level message, some a⟩ := by
  refine hT.guarded fun poisoned _ => ?_
  cases poisoned with
  | true => exact ⟨(hT.silent γ (.unwind guards) trivial).1, fun x => nomatch x⟩
  | false => exact hT.perform h

/-- A guard given back. -/
theorem Lifts.release {α : Type} {l : Lock} {r : α} {γ : Γ} {Q : α → Γ → Prop} (h : Q r γ) :
    (.op (.release l) fun _ => .ret r : Prog Act Act.Ans α).Follows T' A' γ Q := by
  have hrelease := hT.silent γ (.release l) trivial
  refine ⟨hrelease.1, fun _ _ => ?_⟩
  rw [hrelease.2]
  exact h

/-- **A critical section** is its operation. -/
theorem Lifts.critical (o : Op) (γ : Γ) (h : T.permits γ o) :
    (Slonk.critical o).Follows T' A' γ fun a γ' => A o a ∧ γ' = T.next γ ⟨o, some a⟩ := by
  cases o with
  | moveTo newState => exact hT.guarded fun _ _ => hT.perform h
  | write driverId value => exact hT.guarded fun _ _ => hT.perform h
  | sleep duration => exact hT.perform h
  | now => exact hT.perform h
  | spawn cmd => exact hT.perform h
  | send message =>
    refine hT.guarded fun poisoned ha => ?_
    cases poisoned with
    | true =>
      obtain ⟨hanswer, hnext⟩ := hT.poisoned ha γ message
      exact ⟨hanswer, hnext.symm⟩
    | false => exact hT.guarded fun _ _ => hT.perform h
  | logCommand time tag cmd =>
    have hacquire := hT.silent γ (.acquire .cmdLog .exclusive) trivial
    refine ⟨hacquire.1, fun _ _ => ?_⟩
    rw [hacquire.2]
    refine Prog.Follows.bind ((hT.perform h).mono ?_)
    rintro r _ ⟨ha, rfl⟩
    match r with
    | .ok () => exact hT.release ⟨ha, rfl⟩
    | .error .poisoned => exact hT.release ⟨ha, rfl⟩
    | .error .io => exact ⟨ha, rfl⟩
  | userLog level message =>
    simp only [Slonk.critical]
    split
    · refine Prog.Follows.bind ((hT.writeLog h).mono ?_)
      rintro r _ ⟨ha, rfl⟩
      exact hT.release ⟨ha, rfl⟩
    · exact hT.writeLog h

/-- **A program over the critical sections**, lock by lock. -/
theorem Lifts.expand {α : Type} {p : Prog Op Op.Ans α} {γ : Γ} {Q : α → Γ → Prop}
    (hp : p.Follows T A γ Q) : (p.expand Slonk.critical).Follows T' A' γ Q :=
  hp.expand hT.aborts hT.critical

end Lifts

/-! ## 2. The threads -/

/-- The thread of a command, or of a stop, over the critical sections; a listener is nothing there. -/
def Thread.sections (config : Configuration) : Thread → Prog Op Op.Ans Unit
  | .handleCommand cmd => commandThread config cmd
  | .emergencyStop => (Slonk.emergencyStop config).run.discard
  | _ => .ret ()

/-- Is it one of the loops that `run` starts? -/
def Thread.listens : Thread → Bool
  | .handleCommand _ | .emergencyStop => false
  | _ => true

/-- Does one of these threads listen?  What is started on the way does not. -/
def listensAt (threads : List Thread) (i : Nat) : Bool := (threads[i]?).any Thread.listens

/-- The critical sections of the commands and the stops. -/
def effects (threads : List Thread) (e : Event Act.Ans) : Option (Call Op.Ans) :=
  if listensAt threads e.tid then none else effect e.call

/-- The operations that leave the guard, the driver lines and the command log alone. -/
def Act.Quiet : Act → Prop
  | op (.moveTo _) | op (.write _ _) | op (.logCommand _ _ _) => False
  | _ => True

theorem quiet_of {a : Act} (hmove : ∀ newState, a ≠ .op (.moveTo newState))
    (hwrite : ∀ driverId value, a ≠ .op (.write driverId value))
    (hlog : ∀ time tag cmd, a ≠ .op (.logCommand time tag cmd)) : a.Quiet := by
  match a with
  | .op (.moveTo newState) => exact hmove newState rfl
  | .op (.write driverId value) => exact hwrite driverId value rfl
  | .op (.logCommand time tag cmd) => exact hlog time tag cmd rfl
  | .op (.sleep _) | .op .now | .op (.userLog _ _) | .op (.send _) | .op (.spawn _) => trivial
  | .acquire _ _ | .release _ | .unwind _ | .status | .hasTarget | .setChannel | .readAdc _ _ => trivial
  | .lineCount | .readLine _ | .writeDriverLog _ _ | .writeSensorLog _ _ | .heartbeat _ => trivial
  | .spawnStop | .accept | .peerAddr | .tryClone => trivial

theorem stands_of_listens {threads : List Thread} {i : Nat} (h : listensAt threads i = true)
    (q' : Prog Act Act.Ans Unit) (q : Prog Op Op.Ans Unit) :
    Stands (effects threads) Orderly i q' q :=
  Or.inr fun _ => if_pos h

theorem stands_expand {threads : List Thread} {i : Nat} (h : listensAt threads i = false)
    (p : Prog Op Op.Ans Unit) : Stands (effects threads) Orderly i (p.expand critical) p := by
  have heq : (fun c => effects threads ⟨i, c⟩) = effect := by
    funext c
    exact if_neg (by simp [h])
  refine Or.inl ?_
  rw [heq]
  exact .expand critical_implements p

/-- **A thread of the controller** stands for its thread over the critical sections. -/
theorem Thread.program_stands (F : Type) [F64 F] (config : Configuration) (profile : Profile)
    (fromSlice : List UInt8 → Option Command) {threads : List Thread} {i : Nat} {thread : Thread}
    (hi : threads[i]? = some thread) :
    Stands (effects threads) Orderly i (thread.program F config profile fromSlice)
      (thread.sections config) := by
  cases hl : thread.listens with
  | true => exact stands_of_listens (by simp [listensAt, hi, hl]) _ _
  | false =>
    have hlistens : listensAt threads i = false := by simp [listensAt, hi, hl]
    cases thread with
    | handleCommand cmd => exact stands_expand hlistens _
    | emergencyStop => exact stands_expand hlistens _
    | _ => cases hl

/-! ## 3. The shared states -/

/-- The two controllers agree on the guard, the driver lines and the command log, and in neither is a
steady lock poisoned. -/
structure Agree (c : Controller) (shared : Shared) : Prop where
  unharmed : c.Unharmed
  userLog : shared.userLog.poisoned = false
  state : shared.state = c.shared.state
  driverLines : shared.driverLines = c.shared.driverLines
  cmdLog : shared.cmdLog = c.shared.cmdLog

/-- A quiet operation. -/
theorem quiet_exec {config : Configuration} {a : Act} (hc : a.Confined config) (ha : a.Quiet)
    (w : World) (c : Controller) :
    (a.exec w c).2.shared.state = c.shared.state ∧
      (a.exec w c).2.shared.driverLines = c.shared.driverLines ∧
      (a.exec w c).2.shared.cmdLog = c.shared.cmdLog := by
  cases a with
  | op o =>
    cases o with
    | userLog level message =>
      simp only [Act.exec, exec]
      split
      · exact ⟨rfl, rfl, rfl⟩
      · split <;> exact ⟨rfl, rfl, rfl⟩
    | moveTo newState => exact ha.elim
    | write driverId value => exact ha.elim
    | logCommand time tag cmd => exact ha.elim
    | _ => exact ⟨rfl, rfl, rfl⟩
  | unwind guards =>
    obtain ⟨_, _, _, _, _, rfl⟩ := hc
    exact ⟨rfl, rfl, rfl⟩
  | readLine driverIdx =>
    simp only [Act.exec]
    split <;> exact ⟨rfl, rfl, rfl⟩
  | heartbeat value =>
    simp only [Act.exec]
    split <;> exact ⟨rfl, rfl, rfl⟩
  | _ => exact ⟨rfl, rfl, rfl⟩

/-- **The same operation on both.** -/
theorem agree_exec {o : Op} (hsend : ∀ message, o ≠ .send message) {w : World} {c : Controller}
    {shared : Shared} (h : Agree c shared) :
    ((Act.op o).exec w c).1 = (exec o w.toEnv shared).1 ∧
      (((Act.op o).exec w c).2.Unharmed →
        Agree ((Act.op o).exec w c).2 (exec o w.toEnv shared).2) := by
  obtain ⟨state, driverLines, cmdLog, userLog, toDash⟩ := shared
  obtain ⟨hunharmed, huser, rfl, rfl, rfl⟩ := h
  have huser' : c.shared.userLog.poisoned = false := hunharmed .userLog trivial
  have huser'' : userLog.poisoned = false := huser
  cases o with
  | send message => exact absurd rfl (hsend message)
  | moveTo newState => exact ⟨rfl, fun hu => ⟨hu, huser, rfl, rfl, rfl⟩⟩
  | sleep duration => exact ⟨rfl, fun hu => ⟨hu, huser, rfl, rfl, rfl⟩⟩
  | now => exact ⟨rfl, fun hu => ⟨hu, huser, rfl, rfl, rfl⟩⟩
  | spawn cmd => exact ⟨rfl, fun hu => ⟨hu, huser, rfl, rfl, rfl⟩⟩
  | write driverId value =>
    simp only [Act.exec, exec]
    split
    · exact ⟨rfl, fun hu => ⟨hu, huser, rfl, rfl, rfl⟩⟩
    · split <;> exact ⟨rfl, fun hu => ⟨hu, huser, rfl, rfl, rfl⟩⟩
  | logCommand time tag cmd =>
    simp only [Act.exec, exec]
    split
    · exact ⟨rfl, fun hu => ⟨hu, huser, rfl, rfl, rfl⟩⟩
    · split <;> exact ⟨rfl, fun hu => ⟨hu, huser, rfl, rfl, rfl⟩⟩
  | userLog level message =>
    simp only [Act.exec, exec, huser', huser'', Bool.false_eq_true, if_false]
    split
    · exact ⟨rfl, fun hu => ⟨hu, huser, rfl, rfl, rfl⟩⟩
    · exact ⟨rfl, fun hu => ⟨hu, rfl, rfl, rfl, rfl⟩⟩

/-! ## 4. Runs -/

/-- What holds of every event of a run without the thread that serves the clients. -/
structure Regular (config : Configuration) (threads : List Thread) (e : Event Act.Ans) : Prop where
  orderly : Orderly e.call.op e.call.ans
  confined : e.call.op.Confined config
  quiet : effects threads e = none → e.call.op.Quiet
  effective : ∀ c, effects threads e = some c →
    (∀ message, c.op ≠ .send message) ∧ ∀ cmd, c.op ≠ .spawn cmd
  noSpawn : ∀ cmd, e.call.op ≠ .op (.spawn cmd)

section Runs

variable {F : Type} [F64 F] {config : Configuration} {profile : Profile}
  {fromSlice : List UInt8 → Option Command} {threads : List Thread} {c : Controller}
  {t : List (Event Act.Ans)} {s : Sys Act Act.Ans Controller}

/-- A controller that starts unharmed stays so, and its operations are confined. -/
theorem controller_unharmed (hc : c.Unharmed)
    (hrun : Run (controller config) (controllerOf F config profile fromSlice threads c) t s) :
    s.shared.Unharmed ∧ ∀ e ∈ t, e.call.op.Confined config := by
  obtain ⟨hI, ht, -⟩ := Run.within (fun a w _ ha => unharmed_exec ha w)
    (fun _ _ _ h => controller_fork_within config h) (fun p hp => by
      obtain ⟨thread, -, rfl⟩ := List.mem_map.mp hp
      exact thread.program_within config F profile fromSlice) hc hrun
  exact ⟨hI, fun e he => (ht e he).1⟩

/-- **What an unharmed controller answers** is orderly. -/
theorem orderly_exec (hc : c.Unharmed) (a : Act) (w : World) : Orderly a (a.exec w c).1 := by
  cases a with
  | acquire l mode =>
    cases l with
    | userLog => exact congrArg some (hc .userLog trivial)
    | dashChannel => exact congrArg some (hc .dashChannel trivial)
    | _ => exact nofun
  | release l => exact nofun
  | _ => trivial

/-- What thread `i` performs: it is one of the threads of the beginning, or was started and is none
of the listeners. -/
theorem performs_at (hrun : Run (controller config)
      (controllerOf F config profile fromSlice threads c) t s) {e : Event Act.Ans} (he : e ∈ t) :
    ∃ thread : Thread, thread.listens = listensAt threads e.tid ∧
      (thread ∈ threads ∨ thread.listens = false) ∧ thread.Performs config e.call.op := by
  have hcall : e.call ∈ history e.tid t := mem_history.mpr ⟨e, he, rfl, rfl⟩
  by_cases hlt : e.tid < threads.length
  · have hi : threads[e.tid]? = some threads[e.tid] := List.getElem?_eq_getElem hlt
    have hp : (controllerOf F config profile fromSlice threads c).threads[e.tid]?
        = some (threads[e.tid].program F config profile fromSlice) := by
      simp [controllerOf, hi]
    obtain ⟨q, -, hsteps⟩ := hrun.steps hp
    refine ⟨threads[e.tid], by simp [listensAt, hi], Or.inl (List.getElem_mem hlt), ?_⟩
    exact (hsteps.all (threads[e.tid].program_all F config profile fromSlice)).1 _ hcall
  · have hnone : threads[e.tid]? = none := List.getElem?_eq_none (Nat.not_lt.mp hlt)
    have hlistens : listensAt threads e.tid = false := by simp [listensAt, hnone]
    obtain ⟨q, hq⟩ := hrun.thread_of_mem he
    obtain ⟨thread, hthread, hcalls, -⟩ := performs_of_run hrun hq
    refine ⟨thread, ?_, Or.inr ?_, hcalls _ hcall⟩
    · rcases hthread with h | ⟨cmd, rfl⟩ | rfl
      · rw [hnone] at h
        cases h
      · exact hlistens.symm
      · exact hlistens.symm
    · rcases hthread with h | ⟨cmd, rfl⟩ | rfl
      · rw [hnone] at h
        cases h
      · rfl
      · rfl

/-- What the threads perform, the one that serves the clients left out. -/
theorem Thread.Performs.regular {thread : Thread} {a : Act} (h : thread.Performs config a)
    (hnot : ∀ turns, thread ≠ .accepting turns) :
    (thread.listens = true → a.Quiet) ∧ (thread.listens = false → ∀ message, a ≠ .op (.send message)) ∧
      ∀ cmd, a ≠ .op (.spawn cmd) := by
  have hne : ∀ {b : Act}, ¬ thread.Performs config b → a ≠ b := by
    rintro b hb rfl
    exact hb h
  cases thread with
  | accepting turns => exact absurd rfl (hnot turns)
  | handleCommand cmd =>
    refine ⟨fun hl => Bool.noConfusion hl, fun _ _ => hne ?_, fun _ => hne ?_⟩
    all_goals
      rintro (h | ⟨_, h⟩ | ⟨_, _, h⟩ | ⟨_, _, h⟩)
      · exact h
      all_goals cases h
  | emergencyStop =>
    refine ⟨fun hl => Bool.noConfusion hl, fun _ _ => hne ?_, fun _ => hne ?_⟩
    all_goals
      rintro (h | ⟨_, h⟩ | ⟨_, _, h⟩)
      · exact h
      all_goals cases h
  | heartbeat turns =>
    refine ⟨fun _ => quiet_of (fun _ => hne ?_) (fun _ _ => hne ?_) (fun _ _ _ => hne ?_),
      fun hl => Bool.noConfusion hl, fun _ => hne ?_⟩
    all_goals
      rintro (h | ⟨_, h⟩)
      · exact h
      · cases h
  | _ =>
    refine ⟨fun _ => quiet_of (fun _ => hne ?_) (fun _ _ => hne ?_) (fun _ _ _ => hne ?_),
      fun hl => Bool.noConfusion hl, fun _ => hne ?_⟩
    all_goals
      rintro (h | h)
      · exact h
      · exact h

/-- **Every event of such a run is regular.** -/
theorem regular_of_run (hnot : ∀ turns, Thread.accepting turns ∉ threads) (hc : c.Unharmed)
    (hrun : Run (controller config) (controllerOf F config profile fromSlice threads c) t s) :
    ∀ e ∈ t, Regular config threads e := by
  intro e he
  obtain ⟨thread, hlistens, hthread, hperforms⟩ := performs_at hrun he
  have hne : ∀ turns, thread ≠ .accepting turns := by
    rintro turns rfl
    rcases hthread with h | h
    · exact hnot turns h
    · cases h
  obtain ⟨hquiet, hsend, hspawn⟩ := hperforms.regular hne
  have hconfined := (controller_unharmed hc hrun).2 e he
  refine ⟨?_, hconfined, fun hnone => ?_, fun call hcall => ?_, hspawn⟩
  · -- the state before the event is unharmed
    obtain ⟨t₁, t₂, rfl⟩ := List.append_of_mem he
    obtain ⟨m, m', hmoment⟩ := hrun.moment
    have hunharmed := (controller_unharmed hc hmoment.before).1
    obtain ⟨w, hans, -⟩ := hmoment.step.exec
    rw [hans]
    exact orderly_exec hunharmed e.call.op w
  · unfold effects at hnone
    split at hnone
    · rename_i hl
      exact hquiet (hlistens.trans hl)
    · cases hop : e.call.op with
      | op o =>
        obtain ⟨tid, ⟨op, ans⟩⟩ := e
        cases hop
        cases hnone
      | _ => trivial
  · unfold effects at hcall
    split at hcall
    · cases hcall
    · rename_i hl
      obtain ⟨tid, ⟨op, ans⟩⟩ := e
      cases op with
      | op o =>
        obtain rfl := Option.some.inj hcall
        have hfalse : thread.listens = false := by
          rw [hlistens]
          simpa using hl
        exact ⟨fun message h => hsend hfalse message (congrArg Act.op h),
          fun cmd h => hspawn cmd (congrArg Act.op h)⟩
      | _ => cases hcall

/-- **The controller, lock by lock and with its listeners, refines the critical sections.**  In every
run of any commands, stops and listeners, the guard, the driver lines and the command log go through
what they go through in a run of the commands and stops alone, each critical section performed at once
at the moment of its effect; and the threads that have finished in the one have in the other. -/
theorem controller_refines_sections (F : Type) [F64 F] (config : Configuration) (profile : Profile)
    (fromSlice : List UInt8 → Option Command) (threads : List Thread) (c : Controller)
    (hnot : ∀ turns, Thread.accepting turns ∉ threads) (hc : c.Unharmed)
    (t : List (Event Act.Ans)) (s : Sys Act Act.Ans Controller)
    (hrun : Run (controller config) (controllerOf F config profile fromSlice threads c) t s) :
    ∃ (n : Nat) (s' : System),
      Run (machine config) ⟨c.shared, threads.map (Thread.sections config) ++
        List.replicate n (emergencyStop config).run.discard⟩
        (t.filterMap (committed (effects threads))) s' ∧
      s'.shared.state = s.shared.shared.state ∧
      s'.shared.driverLines = s.shared.shared.driverLines ∧
      s'.shared.cmdLog = s.shared.shared.cmdLog ∧
      s.threads.length = threads.length + n ∧
      ∀ i q, listensAt threads i = false → s.threads[i]? = some q → q.Finished →
        ∃ q', s'.threads[i]? = some q' ∧ q'.Finished := by
  have hregular := regular_of_run hnot hc hrun
  have hexec : ∀ (e : Event Act.Ans) (w : World) (x : Controller) (y : Shared),
      Regular config threads e → e.call.ans = (e.call.op.exec w x).1 → Agree x y →
      (effects threads e = none → Agree (e.call.op.exec w x).2 y) ∧
      ∀ call, effects threads e = some call → (machine config).fork call.op = none ∧
        ∃ env, call.ans = (exec call.op env y).1 ∧
          Agree (e.call.op.exec w x).2 (exec call.op env y).2 := by
    intro e w x y hreg hans hagree
    have hunharmed := (unharmed_exec hreg.confined w hagree.unharmed).2
    constructor
    · intro hnone
      obtain ⟨h₁, h₂, h₃⟩ := quiet_exec hreg.confined (hreg.quiet hnone) w x
      exact ⟨hunharmed, hagree.userLog, hagree.state.trans h₁.symm,
        hagree.driverLines.trans h₂.symm, hagree.cmdLog.trans h₃.symm⟩
    · intro call hcall
      obtain ⟨hsend, hspawn⟩ := hreg.effective call hcall
      obtain ⟨tid, ⟨op, ans⟩⟩ := e
      unfold effects at hcall
      split at hcall
      · cases hcall
      · cases op with
        | op o =>
          obtain rfl := Option.some.inj hcall
          obtain ⟨hans', hagree'⟩ := agree_exec hsend (w := w) hagree
          refine ⟨?_, w.toEnv, hans.trans hans', hagree' hunharmed⟩
          cases o with
          | spawn cmd => exact absurd rfl (hspawn cmd)
          | _ => rfl
        | _ => cases hcall
  have hfork : ∀ (e : Event Act.Ans) (p' : Prog Act Act.Ans Unit), Regular config threads e →
      (controller config).fork e.call.op = some p' →
      ∃ p, p = (emergencyStop config).run.discard ∧ ∀ i,
        (controllerOf F config profile fromSlice threads c).threads.length ≤ i →
        Stands (effects threads) Orderly i p' p := by
    intro e p' hreg hfork
    refine ⟨_, rfl, fun i hi => ?_⟩
    have hlistens : listensAt threads i = false := by
      have hle : threads.length ≤ i := by simpa [controllerOf] using hi
      simp [listensAt, List.getElem?_eq_none hle]
    cases hop : e.call.op with
    | spawnStop =>
      rw [hop] at hfork
      obtain rfl := Option.some.inj hfork
      exact stands_expand hlistens _
    | op o =>
      rw [hop] at hfork
      cases o with
      | spawn cmd => exact absurd hop (hreg.noSpawn cmd)
      | _ => cases hfork
    | _ => rw [hop] at hfork; cases hfork
  obtain ⟨ps, s', hps, href, -⟩ := Run.refines (M := machine config) (R := Agree)
    ⟨c.shared, threads.map (Thread.sections config)⟩ hexec
    (fun e h => h.orderly) hfork hrun hregular ⟨hc, hc .userLog trivial, rfl, rfl, rfl⟩
    (by simp [controllerOf]) (fun i q' q hq' hq => by
      simp only [controllerOf, List.getElem?_map, Option.map_eq_some_iff] at hq' hq
      obtain ⟨thread, hi, rfl⟩ := hq'
      obtain ⟨thread', hi', rfl⟩ := hq
      obtain rfl := Option.some.inj (hi.symm.trans hi')
      exact thread.program_stands F config profile fromSlice hi)
  have hrep : ps = List.replicate ps.length (emergencyStop config).run.discard :=
    List.eq_replicate_of_mem hps
  have hlength : s.threads.length = threads.length + ps.length := by
    rw [← href.length, href.run.length_eq href.noFork]
    simp
  refine ⟨ps.length, s', hrep ▸ href.run, href.shared.state, href.shared.driverLines,
    href.shared.cmdLog, hlength, fun i q hl hq hf => ?_⟩
  have hlt : i < s'.threads.length := by
    rw [href.length]
    exact (List.getElem?_eq_some_iff.mp hq).1
  refine ⟨_, List.getElem?_eq_getElem hlt, ?_⟩
  rcases href.threads i q _ hq (List.getElem?_eq_getElem hlt) with himpl | hsilent
  · cases q with
    | op o k => exact hf.elim
    | ret a =>
      rw [show s'.threads[i] = .ret a from himpl]
      trivial
    | panic =>
      rw [show s'.threads[i] = .panic from himpl]
      trivial
  · -- a thread that does not listen takes effect
    have h := hsilent ⟨.op .now, none⟩
    simp [effects, hl, effect] at h

end Runs

/-- A command between the turns of the heartbeat and of the driver status thread: over the critical
sections it is the command alone, and it opens the valve. -/
theorem actuate_refines_sections : ∃ t s s',
    Run (controller (.oneDriver [] [])) (controllerOf ℚ (.oneDriver [] []) .release (fun _ => none)
      [.heartbeat 1, .handleCommand (.actuate 0 true), .driverStatusListen 1] (.new [false])) t s ∧
    Run (machine (.oneDriver [] [])) ⟨Shared.new [false],
      [.ret (), commandThread (.oneDriver [] []) (.actuate 0 true), .ret ()]⟩
      (t.filterMap (committed (effects
        [.heartbeat 1, .handleCommand (.actuate 0 true), .driverStatusListen 1]))) s' ∧
    s'.shared.driverLines.val = [true] := by
  obtain ⟨t, s, hrun, hp⟩ := exists_guardedRun (M := controller (.oneDriver [] []))
    (G := fun t s e => Locks.Grants t s e) (C := fun t s e => Locks.grants t s e)
    (fun t s e h => Locking.grants_of_grants h)
    ((List.replicate 5 [(0, World.fine), (1, World.fine), (2, World.fine)]).flatten ++
      List.replicate 10 (1, World.fine))
    (s := controllerOf ℚ (.oneDriver [] []) .release (fun _ => none)
      [.heartbeat 1, .handleCommand (.actuate 0 true), .driverStatusListen 1] (.new [false]))
    (P := fun _ s => decide (s.shared.shared.driverLines.val = [true]) &&
      decide (s.threads.length = 3)) (by decide +kernel)
  simp only [Bool.and_eq_true, decide_eq_true_eq] at hp
  obtain ⟨n, s', hrun', -, hlines, -, hlength, -⟩ := controller_refines_sections ℚ (.oneDriver [] [])
    .release (fun _ => none) [.heartbeat 1, .handleCommand (.actuate 0 true), .driverStatusListen 1]
    (.new [false]) (by simp) (fun l _ => by cases l <;> rfl) t s hrun.run
  obtain rfl : n = 0 := by
    rw [hp.2] at hlength
    simpa using hlength.symm
  exact ⟨t, s, s', hrun.run, hrun', by rw [hlines, hp.1]⟩

/-! ## 5. The server -/

/-- The critical section a call of the server is the effect of. -/
def serverEffect : Call ServerOp.Ans → Option (Call Op.Ans)
  | ⟨.act a, x⟩ => effect ⟨a, x⟩
  | _ => none

def ServerOrderly : (o : ServerOp) → Option o.Ans → Prop
  | .act a, x => Orderly a x
  | _, _ => True

/-- The critical sections of thread `i`. -/
def sectionsOf (i : Nat) (t : List (Event ServerOp.Ans)) : List (Call Op.Ans) :=
  (history i t).filterMap serverEffect

theorem serverEffect_eq_some {call : Call ServerOp.Ans} {c : Call Op.Ans}
    (h : serverEffect call = some c) : call = ⟨.act (.op c.op), c.ans⟩ := by
  obtain ⟨op, ans⟩ := call
  cases op with
  | act a =>
    cases a with
    | op o =>
      obtain rfl := Option.some.inj h
      rfl
    | _ => cases h
  | _ => cases h

theorem mem_sectionsOf {i : Nat} {t : List (Event ServerOp.Ans)} {c : Call Op.Ans} :
    c ∈ sectionsOf i t ↔ ∃ e ∈ t, e.tid = i ∧ e.call = ⟨.act (.op c.op), c.ans⟩ := by
  simp only [sectionsOf, List.mem_filterMap, mem_history]
  constructor
  · rintro ⟨call, ⟨e, he, hi, rfl⟩, h⟩
    exact ⟨e, he, hi, serverEffect_eq_some h⟩
  · rintro ⟨e, he, hi, hcall⟩
    exact ⟨_, ⟨e, he, hi, rfl⟩, by rw [hcall]; rfl⟩

theorem sectionsOf_concat_other {i : Nat} (t : List (Event ServerOp.Ans))
    {e : Event ServerOp.Ans} (h : e.tid ≠ i) : sectionsOf i (t ++ [e]) = sectionsOf i t := by
  unfold sectionsOf
  rw [history_concat_other t h]

theorem sectionsOf_concat_self (t : List (Event ServerOp.Ans)) (e : Event ServerOp.Ans) :
    sectionsOf e.tid (t ++ [e]) = sectionsOf e.tid t ++ (serverEffect e.call).toList := by
  unfold sectionsOf
  rw [history_concat_self, List.filterMap_append]
  cases h : serverEffect e.call <;> simp [h]

theorem ofActs_implements {α : Type} {p' : Prog Act Act.Ans α} {p : Prog Op Op.Ans α}
    (hp : p'.Implements effect Orderly p) :
    (ofActs p').Implements serverEffect ServerOrderly p :=
  .rename (g := ServerOp.act) (r := fun _ x => x) (fun _ x h => by rwa [Option.map_id'])
    (fun _ x => by rw [Option.map_id']; rfl) hp

/-- A thread that moves the guard runs a command, or a stop. -/
inductive Commanded (config : Configuration) : Prog ServerOp ServerOp.Ans Unit →
    Prog Op Op.Ans Unit → Prop
  | command (cmd : Command) :
      Commanded config (ofActs (commandRoutine config cmd)) (commandThread config cmd)
  | stop : Commanded config (ofActs (stopRoutine config)) (emergencyStop config).run.discard

theorem Commanded.implements {config : Configuration} {p' : Prog ServerOp ServerOp.Ans Unit}
    {p : Prog Op Op.Ans Unit} (h : Commanded config p' p) :
    p'.Implements serverEffect ServerOrderly p := by
  cases h with
  | command cmd => exact ofActs_implements (.expand critical_implements _)
  | stop => exact ofActs_implements (.expand critical_implements _)

/-- Not a transition of the guard. -/
def ServerOp.Steady (o : ServerOp) : Prop := ∀ newState, o ≠ .act (.op (.moveTo newState))

section Server

variable {F : Type} [F64 F] {config : Configuration} {profile : Profile}
  {fromSlice : List UInt8 → Option Command} {turns : Nat} {lines : List Bool}
  {t : List (Event ServerOp.Ans)} {s : Sys ServerOp ServerOp.Ans Controller}

theorem ofActs_steady {α : Type} {p : Prog Act Act.Ans α}
    (hp : p.All fun a => ∀ newState, a ≠ .op (.moveTo newState)) :
    (ofActs p).All ServerOp.Steady :=
  hp.expand fun _ ha => ⟨fun newState h => ha newState (ServerOp.act.inj h), fun _ => trivial⟩

theorem accepting_steady (config : Configuration) (profile : Profile)
    (fromSlice : List UInt8 → Option Command) (turns : Nat) :
    (accepting config profile fromSlice turns).run.All
      fun a => ∀ newState, a ≠ .op (.moveTo newState) := by
  refine (keeps_accepting (R := fun _ _ => True) (A := fun _ _ => True) ?_ (fun _ _ _ => trivial)
    config profile fromSlice ?_ turns).all
  · rintro a ha newState rfl
    exact ha
  · rintro a ha newState rfl
    exact ha

/-- **A thread of `run`** runs a command or a stop, or does not move the guard. -/
theorem program_commanded (F : Type) [F64 F] (config : Configuration) (profile : Profile)
    (fromSlice : List UInt8 → Option Command) (thread : Thread) :
    (∃ p, Commanded config (ofActs (thread.program F config profile fromSlice)) p) ∨
      (ofActs (thread.program F config profile fromSlice)).All ServerOp.Steady := by
  have hall := thread.program_all F config profile fromSlice
  cases thread with
  | handleCommand cmd => exact Or.inl ⟨_, .command cmd⟩
  | emergencyStop => exact Or.inl ⟨_, .stop⟩
  | heartbeat turns =>
    refine Or.inr (ofActs_steady (hall.mono ?_))
    rintro a (h | ⟨value, h⟩) newState rfl
    · exact h
    · cases h
  | _ =>
    refine Or.inr (ofActs_steady (hall.mono ?_))
    rintro a (h | h) newState rfl
    · exact h
    · exact h

/-- **The closure** does not move the guard. -/
theorem scopeClosure_steady (config : Configuration) (profile : Profile)
    (fromSlice : List UInt8 → Option Command) (turns : Nat) :
    (scopeClosure config profile fromSlice turns).run.All ServerOp.Steady := by
  have hlog : ∀ level message, (Serving.log level message).run.All ServerOp.Steady := by
    intro level message
    refine ofActs_steady ((writeLog_all ?_ [] level message).bind fun _ => trivial)
    rintro a ha newState rfl
    exact ha
  have hspawn : ∀ thread, (Serving.spawn thread).run.All ServerOp.Steady :=
    fun thread => ⟨fun _ => nofun, fun _ => trivial⟩
  have hspawns : (spawnListeners config turns).run.All ServerOp.Steady := by
    refine Fallible.all_bind ?_ fun _ => Fallible.all_bind (hspawn _) fun _ => hspawn _
    generalize config.sensorGroups.zipIdx = groups
    induction groups with
    | nil => trivial
    | cons group groups ih => exact Fallible.all_bind (hspawn _) fun _ => ih
  refine Fallible.all_bind hspawns fun _ => ?_
  refine Fallible.all_bind (hlog _ _) fun _ => Fallible.all_bind (hlog _ _) fun _ => ?_
  refine Fallible.all_bind ⟨fun _ => nofun, fun _ => trivial⟩ fun _ => ?_
  refine Fallible.all_bind ⟨fun _ => nofun, fun _ => trivial⟩ fun address => ?_
  refine Fallible.all_bind (hlog _ _) fun _ => Fallible.all_bind (hlog _ _) fun _ => ?_
  exact ofActs_steady (accepting_steady config profile fromSlice turns)

theorem server_fork_commanded {o : ServerOp} {p : Prog ServerOp ServerOp.Ans Unit}
    (h : (server F config profile fromSlice).fork o = some p) :
    (∃ q, Commanded config p q) ∨ p.All ServerOp.Steady := by
  cases o with
  | act a =>
    obtain ⟨q, hq, rfl⟩ := Option.map_eq_some_iff.mp h
    rcases controller_fork hq with ⟨cmd, rfl⟩ | rfl
    · exact Or.inl ⟨_, .command cmd⟩
    · exact Or.inl ⟨_, .stop⟩
  | spawnListener thread =>
    obtain rfl := Option.some.inj h
    exact program_commanded F config profile fromSlice thread
  | bind => cases h
  | localAddr => cases h

/-- **Every event of the server is orderly.** -/
theorem orderly_of_run (hrun : Run (server F config profile fromSlice)
    (serverOf config profile fromSlice turns lines) t s) :
    ∀ e ∈ t, ServerOrderly e.call.op e.call.ans := by
  intro e he
  obtain ⟨t₁, t₂, rfl⟩ := List.append_of_mem he
  obtain ⟨m, m', hmoment⟩ := hrun.moment
  have hunharmed := (unharmed_of_run hmoment.before).1.1
  obtain ⟨w, hans, -⟩ := hmoment.step.exec
  rw [hans]
  cases e.call.op with
  | act a => exact orderly_exec hunharmed a w.toWorld
  | _ => trivial

/-- **What a thread of the server has done**: nothing to the guard, or what its calls left of a
command or a stop. -/
theorem commanded_of_run (hrun : Run (server F config profile fromSlice)
    (serverOf config profile fromSlice turns lines) t s) {i : Nat}
    {q : Prog ServerOp ServerOp.Ans Unit} (hq : s.threads[i]? = some q) :
    (∀ c ∈ sectionsOf i t, ∀ newState, c.op ≠ .moveTo newState) ∨
      ∃ p' p q₀, Commanded config p' p ∧ Prog.Steps p (sectionsOf i t) q₀ ∧
        q.Implements serverEffect ServerOrderly q₀ := by
  obtain ⟨p', hsteps, ho⟩ := hrun.origin hq
  have hp' : (∃ p, Commanded config p' p) ∨ p'.All ServerOp.Steady := by
    rcases ho with ho | ⟨e, -, hf⟩
    · obtain rfl := List.mem_singleton.mp (List.mem_of_getElem? ho)
      exact Or.inr (scopeClosure_steady config profile fromSlice turns).discard
    · exact server_fork_commanded hf
  rcases hp' with ⟨p, hp⟩ | hsteady
  · obtain ⟨q₀, hq₀, hi⟩ := hp.implements.steps hsteps fun c hc => by
      obtain ⟨e, he, -, rfl⟩ := mem_history.mp hc
      exact orderly_of_run hrun e he
    exact Or.inr ⟨p', p, q₀, hp, hq₀, hi⟩
  · refine Or.inl fun c hc newState hop => ?_
    obtain ⟨e, he, hi, hcall⟩ := mem_sectionsOf.mp hc
    have hmem : e.call ∈ history i t := mem_history.mpr ⟨e, he, hi, rfl⟩
    refine (hsteps.all hsteady).1 _ hmem newState ?_
    rw [hcall]
    exact congrArg (fun o => ServerOp.act (.op o)) hop

end Server

end Slonk
