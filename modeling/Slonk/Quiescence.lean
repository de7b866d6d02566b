/-
# Nobody leaves the guard behind

A procedure that has moved the guard to PreIgnite, Ignite, PostIgnite or EStopping owes it a way back
to Standby; until then every `Ignition` is refused.  Procedures overtake one another, and some of their
transitions are refused on the way.  Can that leave the guard in one of those states with nobody to move
it on?  It cannot: whoever has moved the guard last is still running, and the transition it will ask for
next is allowed from where it left the guard; unless a write to a driver has failed it since.

* `debts` follows what the thread of a command or of a stop owes: nothing, a way on from a state it
  has installed, or nothing any more because a write has failed it.
* Every such thread follows it (`commandThread_settles`, `emergencyStop_settles`): it asks only for
  transitions that are allowed from the state it has installed, and does not return owing one.
* Over runs of the whole server, the thread that has installed the guard's state owes it
  (`Indebted.step`), because between its install and its next transition the guard is where it
  left it, and so that transition cannot be refused.
-/
import Slonk.CriticalSections

namespace Slonk

open Concurrency

variable {config : Configuration}

/-! ## 1. Debts -/

/-- What a thread owes the guard. -/
inductive Debt
  | nothing
  /-- a way on from this state, which it has installed -/
  | owes (phase : State)
  /-- an operation has failed it -/
  | failed
  deriving DecidableEq, Repr

/-- The debt of a thread that has moved the guard. -/
def Debt.install (newState : State) : Debt :=
  if newState = .standby then .nothing else .owes newState

/-- Not a debt: nothing has to be done any more. -/
def Debt.Clear (debt : Debt) : Prop := ∀ phase, debt ≠ .owes phase

/-- The debt after a call. -/
def Debt.next : Debt → Call Op.Ans → Debt
  | _, ⟨.moveTo newState, some (.ok ())⟩ => .install newState
  | owes phase, ⟨.write _ _, some (.ok ())⟩ => .owes phase
  | owes _, ⟨.moveTo _, _⟩ | owes _, ⟨.write _ _, _⟩ | owes _, ⟨_, none⟩ => .failed
  | debt, _ => debt

/-- A thread that owes a way on from a state asks only for transitions that the table allows from
there. -/
def debts : Protocol Op Op.Ans Debt where
  permits debt o := ∀ phase newState, debt = .owes phase → o = .moveTo newState →
    validTransition phase newState = true
  aborts := Debt.Clear
  next := Debt.next

theorem Debt.clear_nothing : Debt.nothing.Clear := fun _ => nofun

theorem Debt.clear_failed : Debt.failed.Clear := fun _ => nofun

/-- A panic ends a debt. -/
theorem Debt.next_none (debt : Debt) (o : Op) : (debt.next ⟨o, none⟩).Clear := by
  cases debt with
  | nothing => cases o <;> exact clear_nothing
  | failed => cases o <;> exact clear_failed
  | owes phase => cases o <;> exact clear_failed

/-- Only a transition makes a debt. -/
theorem Debt.next_clear {debt : Debt} (h : debt.Clear) {c : Call Op.Ans}
    (hc : ∀ newState, c ≠ ⟨.moveTo newState, some (.ok ())⟩) : debt.next c = debt := by
  unfold next
  split
  · exact absurd rfl (hc _)
  · exact absurd rfl (h _)
  · exact absurd rfl (h _)
  · exact absurd rfl (h _)
  · exact absurd rfl (h _)
  · rfl

/-! ## 2. The procedures -/

/-- From where it is, the program asks only for allowed transitions, and returns clear. -/
abbrev Settles {α : Type} (debt : Debt) (p : Prog Op Op.Ans α) : Prop :=
  p.Follows debts (fun _ _ => True) debt fun _ debt' => debt'.Clear

theorem permits_clear {debt : Debt} (h : debt.Clear) (o : Op) : debts.permits debt o :=
  fun phase _ hd _ => absurd hd (h phase)

/-- A program that does not move the guard leaves a clear debt as it is. -/
theorem settles_of_all {α : Type} {p : Prog Op Op.Ans α} (hp : p.All fun o => ∀ newState, o ≠ .moveTo newState)
    {debt : Debt} (h : debt.Clear) : Settles debt p := by
  have := hp.follows (T := debts) (A := fun _ _ => True) (γ := debt)
    (fun o _ => permits_clear h o) (fun o a ho => Debt.next_clear h fun newState hc => by
      cases hc
      exact ho newState rfl) h
  refine this.mono ?_
  rintro _ _ rfl
  exact h

/-- A transition that is allowed: the debt is now for the new state. -/
theorem follows_moveTo {debt : Debt} {newState : State}
    (h : ∀ phase, debt = .owes phase → validTransition phase newState = true) :
    (moveTo newState).run.Follows debts (fun _ _ => True) debt fun r debt' =>
      (r = .ok () ∧ debt' = .install newState) ∨ ((∃ e, r = .error e) ∧ debt'.Clear) := by
  refine ⟨fun phase _ hd ho => ?_, fun a _ => ?_⟩
  · obtain rfl := Op.moveTo.inj ho
    exact h phase hd
  · cases a with
    | ok u => exact Or.inl ⟨rfl, rfl⟩
    | error e =>
      refine Or.inr ⟨⟨_, rfl⟩, ?_⟩
      cases debt with
      | nothing => exact Debt.clear_nothing
      | owes phase => exact Debt.clear_failed
      | failed => exact Debt.clear_failed

/-- The debt stays through a sequence of actions, unless one of them fails. -/
theorem follows_performActions (phase : State) : ∀ actions : List Action,
    (performActions actions).run.Follows debts (fun _ _ => True) (.owes phase) fun r debt' =>
      (r = .ok () ∧ debt' = .owes phase) ∨ ((∃ e, r = .error e) ∧ debt'.Clear)
  | [] => Or.inl ⟨rfl, rfl⟩
  | .actuate driverId value :: actions => by
    refine Prog.Follows.bind (f := thenRun _) ⟨nofun, fun a _ => ?_⟩
    cases a with
    | ok u => exact follows_performActions phase actions
    | error e => exact Or.inr ⟨⟨_, rfl⟩, Debt.clear_failed⟩
  | .sleep duration :: actions =>
    Prog.Follows.bind (f := thenRun _) ⟨nofun, fun _ _ => follows_performActions phase actions⟩

/-- What comes after a step that keeps its debt, or fails clear. -/
theorem settles_then {p : Proc ExecutionError Unit} {f : Unit → Proc ExecutionError Unit}
    {debt debt' : Debt}
    (hp : p.run.Follows debts (fun _ _ => True) debt fun r d =>
      (r = .ok () ∧ d = debt') ∨ ((∃ e, r = .error e) ∧ d.Clear))
    (hf : Settles debt' (f ()).run) : Settles debt (p >>= f).run := by
  refine Prog.Follows.bind (f := thenRun f) (hp.mono ?_)
  rintro r d (⟨rfl, rfl⟩ | ⟨⟨e, rfl⟩, hd⟩)
  · exact hf
  · exact hd

/-- **The last transition**, to Standby, ends the debt. -/
theorem settles_standby {phase : State} (h : validTransition phase .standby = true) :
    Settles (.owes phase) (moveTo .standby).run := by
  refine (follows_moveTo fun phase' hd => ?_).mono ?_
  · obtain rfl := Debt.owes.inj hd
    exact h
  · rintro r d (⟨-, rfl⟩ | ⟨-, hd⟩)
    · exact Debt.clear_nothing
    · exact hd

theorem emergencyStop_settles : Settles .nothing (emergencyStop config).run :=
  settles_then (follows_moveTo nofun) <|
    settles_then (follows_performActions .eStopping _) (settles_standby rfl)

theorem ignition_settles : Settles .nothing (ignition config).run := by
  have hmove : ∀ {phase newState : State}, validTransition phase newState = true →
      ∀ phase', Debt.owes phase = .owes phase' → validTransition phase' newState = true := by
    rintro phase newState h _ ⟨⟩
    exact h
  have hsleep : ∀ {phase : State} (duration : Duration),
      (sleep duration).run.Follows debts (fun _ _ => True) (.owes phase) fun r d =>
        (r = .ok () ∧ d = .owes phase) ∨ ((∃ e, r = .error e) ∧ d.Clear) :=
    fun duration => ⟨nofun, fun _ _ => Or.inl ⟨rfl, rfl⟩⟩
  exact settles_then (follows_moveTo nofun) <| settles_then (hsleep _) <|
    settles_then (follows_moveTo (hmove rfl)) <|
    settles_then (follows_performActions .ignite _) <|
    settles_then (follows_moveTo (hmove rfl)) <| settles_then (hsleep _) (settles_standby rfl)

theorem execute_settles (cmd : Command) : Settles .nothing (execute config cmd).run := by
  cases cmd with
  | actuate driverId value =>
    exact settles_of_all (execute_actuate_all fun _ => nofun) Debt.clear_nothing
  | ignition => exact ignition_settles
  | emergencyStop => exact emergencyStop_settles

theorem not_moveTo_of_logs {o : Op} (ho : o.Logs) (newState : State) : o ≠ .moveTo newState := by
  rintro rfl
  exact ho

/-- **The thread of a command.** -/
theorem commandThread_settles (cmd : Command) : Settles .nothing (commandThread config cmd) := by
  have hlogs : ∀ {α : Type} {p : Prog Op Op.Ans α}, p.All Op.Logs → ∀ {debt : Debt}, debt.Clear →
      Settles debt p := fun hp _ h => settles_of_all (hp.mono fun _ => not_moveTo_of_logs) h
  refine Prog.Follows.bind (Prog.Follows.mono ?_ fun _ debt h =>
    hlogs (p := .op (.userLog .debug _) fun _ => .ret ()) ⟨trivial, fun _ => trivial⟩ h)
  rw [handleCommand_eq]
  refine Prog.Follows.bind (f := thenRun _)
    ((((prologue_all (P := Op.Logs) (fun _ => id) cmd).follows (T := debts)
      (A := fun _ _ => True) (γ := .nothing) (fun o _ => permits_clear Debt.clear_nothing o)
      (fun o a ho => Debt.next_clear Debt.clear_nothing fun newState hc => by
        cases hc
        exact ho) Debt.clear_nothing)).mono ?_)
  rintro (e | u) debt rfl
  · exact Debt.clear_nothing
  refine Prog.Follows.bind (f := thenRun _) ((execute_settles cmd).mono ?_)
  rintro (e | u) debt h
  · exact h
  · exact hlogs (epilogue_all (P := Op.Logs) (fun _ => id) cmd) h

theorem Commanded.settles {p' : Prog ServerOp ServerOp.Ans Unit} {p : Prog Op Op.Ans Unit}
    (h : Commanded config p' p) : Settles .nothing p := by
  cases h with
  | command cmd => exact commandThread_settles cmd
  | stop => exact emergencyStop_settles.discard

/-! ## 3. Runs -/

/-- What thread `i` owes after these events. -/
def debtOf (i : Nat) (t : List (Event ServerOp.Ans)) : Debt :=
  debts.after .nothing (sectionsOf i t)

/-- The event is a transition that succeeds. -/
def Installs (e : Event ServerOp.Ans) (newState : State) : Prop :=
  e.call = ⟨.act (.op (.moveTo newState)), some (.ok ())⟩

/-- The call is a write to a driver that does not succeed. -/
def FailsWrite (call : Call ServerOp.Ans) : Prop :=
  ∃ driverId value x, call = ⟨.act (.op (.write driverId value)), x⟩ ∧ x ≠ some (.ok ())

/-- The last transition of the run was the event `e`, to this state. -/
structure LastInstall (t t₁ : List (Event ServerOp.Ans)) (e : Event ServerOp.Ans)
    (t₂ : List (Event ServerOp.Ans)) (phase : State) : Prop where
  split : t = t₁ ++ e :: t₂
  installs : Installs e phase
  last : ∀ e' ∈ t₂, ∀ newState, ¬ Installs e' newState

/-- Whoever has installed the state owes a way on from it, or a write has failed it since. -/
def Indebted (t : List (Event ServerOp.Ans)) (phase : State) : Prop :=
  ∃ t₁ e t₂, LastInstall t t₁ e t₂ phase ∧
    (debtOf e.tid t = .owes phase ∨ ∃ e' ∈ t₂, e'.tid = e.tid ∧ FailsWrite e'.call)

theorem after_clear {debt : Debt} (h : debt.Clear) : ∀ {calls : List (Call Op.Ans)},
    (∀ c ∈ calls, ∀ newState, c.op ≠ .moveTo newState) → debts.after debt calls = debt
  | [], _ => rfl
  | c :: calls, hcalls => by
    rw [List.forall_mem_cons] at hcalls
    rw [Protocol.after_cons]
    have hnext : debts.next debt c = debt := Debt.next_clear h fun newState hc =>
      hcalls.1 newState (by rw [hc])
    rw [hnext]
    exact after_clear h hcalls.2

/-- After a panic nothing is owed. -/
theorem clear_of_panic {p q : Prog Op Op.Ans Unit} {calls : List (Call Op.Ans)}
    (hs : Prog.Steps p calls q) {c : Call Op.Ans} (hc : c ∈ calls) (hnone : c.ans = none)
    (debt : Debt) : (debts.after debt calls).Clear := by
  obtain ⟨h₁, h₂, rfl⟩ := List.append_of_mem hc
  obtain ⟨k, -, hrest⟩ := hs.split
  rw [hnone] at hrest
  obtain ⟨rfl, -⟩ := hrest.of_finished trivial
  obtain ⟨o, a⟩ := c
  obtain rfl : a = none := hnone
  rw [Protocol.after_concat]
  exact Debt.next_none _ o

section Server

variable {F : Type} [F64 F] {profile : Profile} {fromSlice : List UInt8 → Option Command}
  {turns : Nat} {lines : List Bool} {t : List (Event ServerOp.Ans)}
  {s m m' : Sys ServerOp ServerOp.Ans Controller} {e : Event ServerOp.Ans}

/-- **A thread that owes** has not returned, and will ask for an allowed transition. -/
theorem follows_of_owes (hrun : Run (server F config profile fromSlice)
      (serverOf config profile fromSlice turns lines) t s) {i : Nat}
    {q : Prog ServerOp ServerOp.Ans Unit} (hq : s.threads[i]? = some q) {phase : State}
    (hd : debtOf i t = .owes phase) :
    ∃ q₀, q.Implements serverEffect ServerOrderly q₀ ∧ Settles (.owes phase) q₀ := by
  rcases commanded_of_run hrun hq with hnone | ⟨p', p, q₀, hp, hsteps, hi⟩
  · rw [debtOf, after_clear Debt.clear_nothing hnone] at hd
    cases hd
  · rcases hp.settles.steps hsteps fun _ _ _ _ => trivial with ⟨-, c, hc, hnone⟩ | hf
    · exact absurd hd (clear_of_panic hsteps hc hnone _ phase)
    · exact ⟨q₀, hi, hd ▸ hf⟩

/-- What it will ask for is allowed. -/
theorem valid_of_owes (hrun : Run (server F config profile fromSlice)
      (serverOf config profile fromSlice turns lines) t s) {i : Nat} {phase newState : State}
    {k : Except StateError Unit → Prog ServerOp ServerOp.Ans Unit}
    (hq : s.threads[i]? = some (.op (.act (.op (.moveTo newState))) k))
    (hd : debtOf i t = .owes phase) : validTransition phase newState = true := by
  obtain ⟨q₀, hi, hf⟩ := follows_of_owes hrun hq hd
  obtain ⟨c, k', hc, rfl, -⟩ := hi.2 trivial
  obtain rfl := Option.some.inj hc
  exact hf.1 phase newState rfl rfl

/-- It has something to do. -/
theorem not_finished_of_owes (hrun : Run (server F config profile fromSlice)
      (serverOf config profile fromSlice turns lines) t s) {i : Nat}
    {q : Prog ServerOp ServerOp.Ans Unit} (hq : s.threads[i]? = some q) {phase : State}
    (hd : debtOf i t = .owes phase) : ¬ q.Finished := by
  obtain ⟨q₀, hi, hf⟩ := follows_of_owes hrun hq hd
  intro hfinished
  cases q with
  | op o k => exact hfinished
  | ret a =>
    obtain rfl := hi
    exact hf phase rfl
  | panic =>
    obtain rfl := hi
    exact hf phase rfl

/-- **What a step does to the guard**: it installs a state, as the table allows, or leaves the guard
where it was. -/
theorem install_or_keep (hs : (server F config profile fromSlice).StepTo m e m') :
    (∃ newState, Installs e newState ∧ m'.shared.shared.state.state = newState) ∨
      (∀ newState, ¬ Installs e newState) ∧
        m'.shared.shared.state.state = m.shared.shared.state.state := by
  obtain ⟨w, hans, hshared⟩ := hs.exec
  obtain ⟨tid, ⟨op, ans⟩⟩ := e
  rw [hshared]
  cases op with
  | act a =>
    cases a with
    | op o =>
      by_cases hmove : ∃ newState, o = .moveTo newState
      · obtain ⟨newState, rfl⟩ := hmove
        obtain rfl : ans = some (m.shared.shared.state.moveTo newState).1 := hans
        cases hr : (m.shared.shared.state.moveTo newState).1 with
        | ok u =>
          refine Or.inl ⟨newState, rfl, ?_⟩
          exact congrArg Guard.state (Guard.moveTo_ok hr).2.2
        | error err =>
          refine Or.inr ⟨?_, congrArg Guard.state (Guard.moveTo_error hr)⟩
          rintro newState' h
          cases h
      · refine Or.inr ⟨?_, ?_⟩
        · rintro newState h
          cases h
          exact hmove ⟨newState, rfl⟩
        · exact congrArg Guard.state
            (exec_state (fun newState hn => hmove ⟨newState, hn⟩) w.toEnv m.shared.shared)
    | unwind guards =>
      refine Or.inr ⟨by rintro _ ⟨⟩, ?_⟩
      exact Controller.foldl_poison (f := fun c => c.shared.state.state) (fun _ l => by cases l <;> rfl)
        guards m.shared
    | readLine driverIdx =>
      refine Or.inr ⟨by rintro _ ⟨⟩, ?_⟩
      simp only [server, ServerOp.exec, Act.exec]
      split <;> rfl
    | heartbeat value =>
      refine Or.inr ⟨by rintro _ ⟨⟩, ?_⟩
      simp only [server, ServerOp.exec, Act.exec]
      split <;> rfl
    | _ => exact Or.inr ⟨by rintro _ ⟨⟩, rfl⟩
  | _ => exact Or.inr ⟨by rintro _ ⟨⟩, rfl⟩

theorem debtOf_concat_self (t : List (Event ServerOp.Ans)) (e : Event ServerOp.Ans) :
    debtOf e.tid (t ++ [e])
      = debts.after (debtOf e.tid t) (serverEffect e.call).toList := by
  unfold debtOf
  rw [sectionsOf_concat_self]
  exact List.foldl_append

/-- **A step of the thread that owes**, which is no transition: it still owes, or the step was a write
that has failed it. -/
theorem owes_step (hrun : Run (server F config profile fromSlice)
      (serverOf config profile fromSlice turns lines) t m)
    (hs : (server F config profile fromSlice).StepTo m e m')
    (hno : ∀ newState, ¬ Installs e newState)
    (hd : debtOf e.tid t = .owes m.shared.shared.state.state) :
    debtOf e.tid (t ++ [e]) = .owes m.shared.shared.state.state ∨ FailsWrite e.call := by
  obtain ⟨k, w, hk, hans, -, -⟩ := hs.cases
  have hunharmed := (unharmed_of_run hrun).1.1
  rw [debtOf_concat_self, hd]
  obtain ⟨tid, ⟨op, ans⟩⟩ := e
  cases op with
  | act a =>
    cases a with
    | op o =>
      change (some _).toList.foldl debts.next _ = _ ∨ _
      cases o with
      | moveTo newState =>
        -- the guard is where the thread has left it
        have hvalid := valid_of_owes hrun hk hd
        have hpoisoned : m.shared.shared.state.poisoned = false := hunharmed .state trivial
        have hok := Guard.moveTo_of_valid hpoisoned hvalid
        refine absurd ?_ (hno newState)
        obtain rfl : ans = some (m.shared.shared.state.moveTo newState).1 := hans
        rw [Installs, hok]
      | write driverId value =>
        by_cases hok : ans = some (.ok ())
        · subst hok
          exact Or.inl rfl
        · exact Or.inr ⟨driverId, value, ans, rfl, hok⟩
      | _ =>
        cases ans with
        | some a => exact Or.inl rfl
        | none =>
          rcases panics_of_unharmed hunharmed (a := .op _) hans.symm with
            ⟨_, h⟩ | ⟨_, _, h, -⟩ <;> cases h
    | _ => exact Or.inl rfl
  | _ => exact Or.inl rfl

/-- **What one step preserves.** -/
theorem Indebted.step (hrun : Run (server F config profile fromSlice)
      (serverOf config profile fromSlice turns lines) t m)
    (hs : (server F config profile fromSlice).StepTo m e m')
    (h : m.shared.shared.state.state ≠ .standby → Indebted t m.shared.shared.state.state) :
    m'.shared.shared.state.state ≠ .standby →
      Indebted (t ++ [e]) m'.shared.shared.state.state := by
  intro hne
  rcases install_or_keep hs with ⟨newState, hinstalls, hstate⟩ | ⟨hno, hstate⟩
  · rw [hstate] at hne ⊢
    refine ⟨t, e, [], ⟨rfl, hinstalls, fun e' he' => absurd he' List.not_mem_nil⟩, Or.inl ?_⟩
    rw [debtOf_concat_self, hinstalls]
    exact if_neg hne
  · rw [hstate] at hne ⊢
    obtain ⟨t₁, e₀, t₂, hlast, hd⟩ := h hne
    refine ⟨t₁, e₀, t₂ ++ [e], ⟨by simp [hlast.split], hlast.installs, fun e' he' => ?_⟩, ?_⟩
    · rcases List.mem_append.mp he' with he' | he'
      · exact hlast.last e' he'
      · obtain rfl := List.mem_singleton.mp he'
        exact hno
    · rcases hd with hd | ⟨e', he', htid, hf⟩
      · by_cases hi : e.tid = e₀.tid
        · rw [← hi] at hd ⊢
          exact (owes_step hrun hs hno hd).imp_right fun hf => ⟨e, by simp, rfl, hf⟩
        · refine Or.inl ?_
          rw [debtOf, sectionsOf_concat_other t hi]
          exact hd
      · exact Or.inr ⟨e', List.mem_append_left _ he', htid, hf⟩

theorem indebted_of_run (hrun : Run (server F config profile fromSlice)
    (serverOf config profile fromSlice turns lines) t s) :
    s.shared.shared.state.state ≠ .standby → Indebted t s.shared.shared.state.state := by
  induction hrun with
  | refl => exact fun h => absurd rfl h
  | tail hrun hs ih => exact Indebted.step hrun hs ih

/-- **Nobody leaves the guard behind.**  In every reachable state of the server, if the guard is not in
Standby, then the thread that has moved it last is still running, and if it is about to ask for a
transition, the table allows it from where the guard is; or a write to a driver has failed that
thread since.  Other threads cannot keep it from moving on. -/
theorem guard_never_abandoned (F : Type) [F64 F] (config : Configuration) (profile : Profile)
    (fromSlice : List UInt8 → Option Command) (turns : Nat) (lines : List Bool)
    (t : List (Event ServerOp.Ans)) (s : Sys ServerOp ServerOp.Ans Controller)
    (hrun : Run (server F config profile fromSlice)
      (serverOf config profile fromSlice turns lines) t s)
    (hstate : s.shared.shared.state.state ≠ .standby) :
    ∃ t₁ e t₂, LastInstall t t₁ e t₂ s.shared.shared.state.state ∧
      ((∃ q, s.threads[e.tid]? = some q ∧ ¬ q.Finished ∧
          ∀ newState k, q = .op (.act (.op (.moveTo newState))) k →
            validTransition s.shared.shared.state.state newState = true) ∨
        ∃ e' ∈ t₂, e'.tid = e.tid ∧ FailsWrite e'.call) := by
  obtain ⟨t₁, e, t₂, hlast, hd⟩ := indebted_of_run hrun hstate
  refine ⟨t₁, e, t₂, hlast, hd.imp_left fun hd => ?_⟩
  have he : e ∈ t := by
    rw [hlast.split]
    simp
  obtain ⟨q, hq⟩ := hrun.thread_of_mem he
  refine ⟨q, hq, not_finished_of_owes hrun hq hd, ?_⟩
  rintro newState k rfl
  exact valid_of_owes hrun hq hd

/-- When whoever has moved the guard is done, and no write has failed, the guard is in Standby. -/
theorem standby_of_quiescent (hrun : Run (server F config profile fromSlice)
      (serverOf config profile fromSlice turns lines) t s)
    (hdone : ∀ e ∈ t, ∀ newState, Installs e newState →
      ∀ q, s.threads[e.tid]? = some q → q.Finished)
    (hwrites : ∀ e ∈ t, ¬ FailsWrite e.call) : s.shared.shared.state.state = .standby := by
  by_contra hne
  obtain ⟨t₁, e, t₂, hlast, hd⟩ := indebted_of_run hrun hne
  have hmem : ∀ e' ∈ e :: t₂, e' ∈ t := by
    intro e' he'
    rw [hlast.split]
    exact List.mem_append_right _ he'
  rcases hd with hd | ⟨e', he', -, hf⟩
  · obtain ⟨q, hq⟩ := hrun.thread_of_mem (hmem e List.mem_cons_self)
    exact not_finished_of_owes hrun hq hd
      (hdone e (hmem e List.mem_cons_self) _ hlast.installs q hq)
  · exact hwrites e' (hmem e' (List.mem_cons_of_mem _ he')) hf

end Server

/-- No write has failed, as a check. -/
def writesWell (e : Event ServerOp.Ans) : Bool :=
  match e.call with
  | ⟨.act (.op (.write _ _)), some (.ok ())⟩ => true
  | ⟨.act (.op (.write _ _)), _⟩ => false
  | _ => true

theorem not_failsWrite {e : Event ServerOp.Ans} (h : writesWell e = true) : ¬ FailsWrite e.call := by
  rintro ⟨driverId, value, x, hcall, hx⟩
  unfold writesWell at h
  rw [hcall] at h
  match x with
  | none => cases h
  | some (.error e) => cases h
  | some (.ok ()) => exact hx rfl

/-- An ignition that a client has asked for, in its first wait: the guard is in PreIgnite, and the
thread that has put it there goes on. -/
theorem waiting_ignition_owes : ∃ t s,
    Run (server ℚ (.oneDriver [] []) .release fun _ => some .ignition)
      (serverOf (.oneDriver [] []) .release (fun _ => some .ignition) 1 [false]) t s ∧
    s.shared.shared.state.state = .preIgnite ∧ ∃ t₁ e t₂, LastInstall t t₁ e t₂ .preIgnite ∧
      ∃ q, s.threads[e.tid]? = some q ∧ ¬ q.Finished := by
  obtain ⟨t, s, hrun, hp⟩ := exists_guardedRun
    (M := server ℚ (.oneDriver [] []) .release fun _ => some .ignition)
    (C := fun _ _ e => writesWell e) (G := fun _ _ e => ¬ FailsWrite e.call)
    (fun _ _ _ => not_failsWrite)
    (List.replicate 37 (0, { ServerWorld.fine with incoming := .ok (.ofBytes [123, 125]) }) ++
      List.replicate 10 (3, ServerWorld.fine))
    (s := serverOf (.oneDriver [] []) .release (fun _ => some .ignition) 1 [false])
    (P := fun _ s => decide (s.shared.shared.state.state = .preIgnite)) (by decide +kernel)
  have hstate : s.shared.shared.state.state = .preIgnite := of_decide_eq_true hp
  obtain ⟨t₁, e, t₂, hlast, hq | ⟨e', he', -, hf⟩⟩ := guard_never_abandoned ℚ (.oneDriver [] [])
    .release (fun _ => some .ignition) 1 [false] t s hrun.run (by rw [hstate]; exact nofun)
  · rw [hstate] at hlast
    obtain ⟨q, hq, hf, -⟩ := hq
    exact ⟨t, s, hrun.run, hstate, t₁, e, t₂, hlast, q, hq, hf⟩
  · refine absurd hf (hrun.forall_mem (fun _ _ _ _ h _ => h) e' ?_)
    rw [hlast.split]
    exact List.mem_append_right _ (List.mem_cons_of_mem _ he')

end Slonk
