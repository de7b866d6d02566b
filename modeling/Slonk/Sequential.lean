/-
# Commands one after the other

What a command does when nobody else moves.  The driver lines after any solo run are the ones
before it with the writes that succeeded applied in order (`eval_levels`), so what remains to be
said about a program is which writes it makes, how it returns and where it leaves the guard;
`Performs` says that, and composes.
-/
import Slonk.Commands
import Slonk.Concurrency.Fallible

namespace Slonk

open Concurrency

variable {config : Configuration} {cmd : Command} {n : Nat} {s s' : Shared} {E : Env → Prop}

/-! ## 1. Levels -/

/-- Driver lines after some writes, in order. -/
def applyWrites (lines : List Bool) (writes : List (UInt8 × Bool)) : List Bool :=
  writes.foldl (fun lines w => lines.set w.1.toNat w.2) lines

/-- The value of the last of these writes that names line `d`. -/
def lastWrite (writes : List (UInt8 × Bool)) (d : Nat) : Option Bool :=
  ((writes.filter fun w => w.1.toNat == d).getLast?).map (·.2)

@[simp] theorem applyWrites_nil (lines : List Bool) : applyWrites lines [] = lines := rfl

theorem applyWrites_append (lines : List Bool) (ws ws' : List (UInt8 × Bool)) :
    applyWrites lines (ws ++ ws') = applyWrites (applyWrites lines ws) ws' := List.foldl_append

@[simp] theorem length_applyWrites (lines : List Bool) (ws : List (UInt8 × Bool)) :
    (applyWrites lines ws).length = lines.length := by
  induction ws generalizing lines with
  | nil => rfl
  | cons w ws ih => exact (ih _).trans List.length_set

/-- **Each line ends at the value of the last write that names it**, or as it was. -/
theorem getElem?_applyWrites (lines : List Bool) (ws : List (UInt8 × Bool)) {d : Nat}
    (hd : d < lines.length) :
    (applyWrites lines ws)[d]? = (lastWrite ws d).or lines[d]? := by
  induction ws using List.reverseRecOn with
  | nil => rfl
  | append_singleton ws w ih =>
    rw [applyWrites_append]
    show ((applyWrites lines ws).set w.1.toNat w.2)[d]? = _
    by_cases hw : w.1.toNat = d
    · rw [hw, List.getElem?_set_self (by rwa [length_applyWrites])]
      simp [lastWrite, hw]
    · rw [List.getElem?_set_ne hw, ih]
      simp [lastWrite, hw]

/-- A driver write that succeeded. -/
def landed : Call Op.Ans → Option (UInt8 × Bool)
  | ⟨.write driverId value, some (.ok ())⟩ => some (driverId, value)
  | _ => none

/-- One operation changes the lines by the write that it made and that succeeded. -/
theorem exec_levels (o : Op) (env : Env) (s : Shared) :
    (exec o env s).2.driverLines.val
      = applyWrites s.driverLines.val ([(⟨o, (exec o env s).1⟩ : Call Op.Ans)].filterMap landed) := by
  cases o with
  | write driverId value =>
    cases hp : s.driverLines.poisoned with
    | true => rw [exec_write_of_poisoned hp]; rfl
    | false =>
      by_cases hlt : driverId.toNat < s.driverLines.val.length
      · rw [exec_write_of_lt hp hlt]
        cases env.pinFails <;> rfl
      · rw [exec_write_of_ge hp (Nat.not_lt.mp hlt)]
        rfl
  | _ => exact congrArg Locked.val (exec_driverLines (by rintro _ _ ⟨⟩) env s)

/-- **The lines after a solo run** are the lines before it with the successful writes applied. -/
theorem eval_levels {α : Type} (p : Prog Op Op.Ans α) (ω : Nat → Env) (s : Shared) :
    (eval (machine config) p ω s).shared.driverLines.val
      = applyWrites s.driverLines.val ((eval (machine config) p ω s).calls.filterMap landed) := by
  induction p generalizing ω s with
  | ret a => rfl
  | panic => rfl
  | op o k ih =>
    have hexec := exec_levels o (ω 0) s
    cases h : ((machine config).exec o (ω 0) s).1 with
    | none =>
      rw [eval_op_none h]
      rw [machine_exec] at h
      rw [h] at hexec
      exact hexec
    | some a =>
      rw [eval_op_some h]
      rw [machine_exec] at h
      rw [h] at hexec
      show (eval (machine config) (k a) _ (exec o (ω 0) s).2).shared.driverLines.val
        = applyWrites _ (([(⟨o, some a⟩ : Call Op.Ans)] ++ _).filterMap landed)
      rw [ih, hexec, List.filterMap_append, applyWrites_append]
      rfl

/-- Where no pin fails, every write succeeds. -/
theorem eval_landed {α : Type} (p : Prog Op Op.Ans α) {ω : Nat → Env}
    (hω : ∀ k, (ω k).pinFails = false) (s : Shared) :
    (eval (machine config) p ω s).calls.filterMap landed
      = (eval (machine config) p ω s).calls.filterMap wrote := by
  induction p generalizing ω s with
  | ret a => rfl
  | panic => rfl
  | op o k ih =>
    have hone : [(⟨o, (exec o (ω 0) s).1⟩ : Call Op.Ans)].filterMap landed
        = [(⟨o, (exec o (ω 0) s).1⟩ : Call Op.Ans)].filterMap wrote := by
      cases o with
      | write driverId value =>
        cases hp : s.driverLines.poisoned with
        | true => rw [exec_write_of_poisoned hp]; rfl
        | false =>
          by_cases hlt : driverId.toNat < s.driverLines.val.length
          · rw [exec_write_of_lt hp hlt, hω 0]; rfl
          · rw [exec_write_of_ge hp (Nat.not_lt.mp hlt)]; rfl
      | _ => rfl
    cases h : ((machine config).exec o (ω 0) s).1 with
    | none =>
      rw [eval_op_none h]
      rw [machine_exec] at h
      rw [h] at hone
      exact hone
    | some a =>
      rw [eval_op_some h]
      rw [machine_exec] at h
      rw [h] at hone
      show ([(⟨o, some a⟩ : Call Op.Ans)] ++ _).filterMap landed
        = ([(⟨o, some a⟩ : Call Op.Ans)] ++ _).filterMap wrote
      rw [List.filterMap_append, List.filterMap_append, hone, ih _ fun k => hω (k + 1)]

/-! ## 2. What a program does -/

/-- These calls made the writes `ws`, and left a healthy state with the guard at `state`. -/
structure Performs (n : Nat) (state : State) (ws : List (UInt8 × Bool)) (h : List (Call Op.Ans))
    (s' : Shared) : Prop where
  healthy : Healthy n s'
  state : s'.state.state = state
  writes : h.filterMap wrote = ws

theorem Performs.append {state state' : State} {ws ws' : List (UInt8 × Bool)}
    {h h' : List (Call Op.Ans)} {m : Shared} (h₁ : Performs n state ws h m)
    (h₂ : Performs n state' ws' h' s') : Performs n state' (ws ++ ws') (h ++ h') s' :=
  ⟨h₂.healthy, h₂.state, by rw [List.filterMap_append, h₁.writes, h₂.writes]⟩

/-- From `s` the program returns `r`, makes the writes `ws` and leaves the guard at `state`. -/
def Does (config : Configuration) (E : Env → Prop) (n : Nat) {ε α : Type}
    (p : Prog Op Op.Ans (Except ε α)) (s : Shared) (r : Except ε α) (state : State)
    (ws : List (UInt8 × Bool)) : Prop :=
  Spec (machine config) E p s fun a h s' => a = r ∧ Performs n state ws h s'

theorem Does.ret {ε α : Type} {r : Except ε α} {state : State} (hs : Healthy n s)
    (h : s.state.state = state) : Does config E n (.ret r) s r state [] :=
  Spec.ret ⟨rfl, hs, h, rfl⟩

/-- One operation that writes nothing, and the rest. -/
theorem Does.op {ε α : Type} {o : Op} {k : o.Ans → Prog Op Op.Ans (Except ε α)}
    {r : Except ε α} {state : State} {ws : List (UInt8 × Bool)}
    (hw : ∀ a, wrote ⟨o, a⟩ = none)
    (h : ∀ env, E env → ∃ a, (exec o env s).1 = some a ∧
      Does config E n (k a) (exec o env s).2 r state ws) :
    Does config E n (.op o k) s r state ws := by
  refine Spec.op fun env henv => ?_
  obtain ⟨a, ha, hk⟩ := h env henv
  refine ⟨a, ha, hk.mono fun b h s' ⟨hb, hp⟩ => ⟨hb, hp.healthy, hp.state, ?_⟩⟩
  rw [List.filterMap_cons_none (hw _), hp.writes]

/-- **Sequencing after success.** -/
theorem Does.bind {ε α β : Type} {p : Proc ε α} {f : α → Proc ε β} {a : α} {r : Except ε β}
    {state state' : State} {ws ws' : List (UInt8 × Bool)}
    (hp : Does config E n p.run s (.ok a) state ws)
    (hf : ∀ s', Healthy n s' → s'.state.state = state →
      Does config E n (f a).run s' r state' ws') :
    Does config E n (p >>= f).run s r state' (ws ++ ws') := by
  refine Spec.bind (f := thenRun f) (hp.mono ?_)
  rintro _ h s' ⟨rfl, hperf⟩
  refine (hf s' hperf.healthy hperf.state).mono ?_
  rintro b h' s'' ⟨hb, hperf'⟩
  exact ⟨hb, hperf.append hperf'⟩

/-- Sequencing after an error. -/
theorem Does.bind_error {ε α β : Type} {p : Proc ε α} {f : α → Proc ε β} {e : ε}
    {state : State} {ws : List (UInt8 × Bool)}
    (hp : Does config E n p.run s (.error e) state ws) :
    Does config E n (p >>= f).run s (.error e) state ws := by
  refine Spec.bind (f := thenRun f) (hp.mono ?_)
  rintro _ h s' ⟨rfl, hperf⟩
  refine Spec.ret ⟨rfl, hperf.healthy, hperf.state, ?_⟩
  rw [List.append_nil, hperf.writes]

/-! ## 3. The logs -/

/-- An operation that logs answers, and changes nothing that matters here. -/
theorem Does.log {ε α : Type} {o : Op} (ho : o.Logs) {k : o.Ans → Prog Op Op.Ans (Except ε α)}
    {r : Except ε α} {state : State} {ws : List (UInt8 × Bool)} (hs : Healthy n s)
    (h : ∀ a s', Healthy n s' → s'.state.state = s.state.state →
      Does config E n (k a) s' r state ws) :
    Does config E n (.op o k) s r state ws := by
  refine Does.op (fun a => wrote_of_logs ho) fun env _ => ?_
  have hrange : InRange n o := by
    cases o with
    | write driverId value => exact ho.elim
    | _ => trivial
  obtain ⟨hans, hs'⟩ := exec_healthy env hrange hs
  obtain ⟨a, ha⟩ := Option.ne_none_iff_exists'.mp hans
  exact ⟨a, ha, h a _ hs' (by rw [(exec_logs ho env s).1])⟩

/-- A line in the user log, whose result is dropped. -/
theorem does_userLog {ε α : Type} (hs : Healthy n s) (level : LogLevel) (message : UserMessage)
    (r : Except ε α) :
    Does config E n (.op (.userLog level message) fun _ => .ret r) s r s.state.state [] :=
  Does.log (o := .userLog level message) trivial hs fun _ _ hs' h' => Does.ret hs' h'

theorem does_logCommand (hs : Healthy n s) (time : Nat) (tag : LogTag) (cmd : Command) :
    Does config E n (logCommand time tag cmd).run s (.ok ()) s.state.state [] := by
  refine Does.op (fun _ => rfl) fun env _ => ?_
  obtain ⟨-, hs'⟩ := exec_healthy env (o := .logCommand time tag cmd) trivial hs
  have hst : (exec (.logCommand time tag cmd) env s).2.state = s.state :=
    (exec_logs (o := .logCommand time tag cmd) trivial env s).1
  by_cases hf : env.cmdLogFails = true
  · refine ⟨.error .io, by simp [exec, hs.cmdLog, hf], ?_⟩
    exact (does_userLog hs' .warn _ _).mono fun r h s' hd => hst ▸ hd
  · exact ⟨.ok (), by simp [exec, hs.cmdLog, hf], Does.ret hs' (by rw [hst])⟩

/-- Reading the clock. -/
theorem Does.now {α : Type} {f : Nat → Proc ExecutionError α} {r : Except ExecutionError α}
    {state : State} {ws : List (UInt8 × Bool)}
    (h : ∀ time, Does config E n (f time).run s r state ws) :
    Does config E n (Slonk.now >>= f).run s r state ws :=
  Does.op (o := .now) (fun _ => rfl) fun env _ => ⟨env.now, rfl, h env.now⟩

theorem does_prologue (hs : Healthy n s) (cmd : Command) :
    Does config E n (prologue cmd).run s (.ok ()) s.state.state [] := by
  refine Does.now fun time => ?_
  rw [← List.append_nil []]
  refine (does_userLog hs .info (.executing cmd) (.ok ())).bind fun s' hs' h' => ?_
  rw [← h']
  exact does_logCommand hs' time .request cmd

theorem does_epilogue (hs : Healthy n s) (cmd : Command) :
    Does config E n (epilogue cmd).run s (.ok ()) s.state.state [] :=
  Does.now fun time => does_logCommand hs time .finish cmd

/-- **A command does what its `match` does**, when that succeeds. -/
theorem does_handleCommand {state : State} {ws : List (UInt8 × Bool)} (hs : Healthy n s)
    (hexec : ∀ s', Healthy n s' → s'.state.state = s.state.state →
      Does config E n (execute config cmd).run s' (.ok ()) state ws) :
    Does config E n (handleCommand config cmd).run s (.ok ()) state ws := by
  rw [handleCommand_eq]
  refine (does_prologue hs cmd).bind fun s₁ hs₁ h₁ => ?_
  rw [← List.append_nil ws]
  refine (hexec s₁ hs₁ h₁).bind fun s₂ hs₂ h₂ => ?_
  rw [← h₂]
  exact does_epilogue hs₂ cmd

/-! ## 4. The procedures -/

/-- A transition the guard allows. -/
theorem does_moveTo (hs : Healthy n s) {newState : State}
    (hv : validTransition s.state.state newState = true) :
    Does config E n (moveTo newState).run s (.ok ()) newState [] := by
  refine Does.op (fun _ => rfl) fun env _ => ?_
  obtain ⟨-, hs'⟩ := exec_healthy env (o := .moveTo newState) trivial hs
  have hok := Guard.moveTo_of_valid hs.state hv
  refine ⟨.ok (), by rw [exec, hok], Does.ret hs' ?_⟩
  show (s.state.moveTo newState).2.state = newState
  rw [hok]

/-- One write in range, with a pin that does not fail. -/
theorem does_write (hs : Healthy n s) {driverId : UInt8} (hlt : driverId.toNat < n) (value : Bool) :
    Does config (fun env => env.pinFails = false) n (write driverId value).run s (.ok ())
      s.state.state [(driverId, value)] := by
  refine Spec.op fun env henv => ?_
  obtain ⟨-, hs'⟩ := exec_healthy (o := .write driverId value) env hlt hs
  have hexec := exec_write_of_lt hs.driverLines (hs.length.symm ▸ hlt) value env
  simp only [henv, Bool.false_eq_true, if_false] at hexec
  refine ⟨.ok (), by rw [machine_exec, hexec], Spec.ret ⟨rfl, hs', ?_, rfl⟩⟩
  rw [machine_exec, hexec]

/-- **A sequence in range makes all its writes, in order**, when no pin fails. -/
theorem does_performActions : ∀ {actions : List Action} {s : Shared}, Healthy n s →
    (∀ driverId value, .actuate driverId value ∈ actions → driverId.toNat < n) →
    Does config (fun env => env.pinFails = false) n (performActions actions).run s (.ok ())
      s.state.state (actuations actions)
  | [], s, hs, _ => Does.ret hs rfl
  | .actuate driverId value :: rest, s, hs, hr => by
    refine (does_write hs (hr _ _ List.mem_cons_self) value).bind fun s' hs' h' => ?_
    rw [← h']
    exact does_performActions hs' fun d v h => hr d v (List.mem_cons_of_mem _ h)
  | .sleep duration :: rest, s, hs, hr => by
    have hsleep : Does config (fun env => env.pinFails = false) n (sleep duration).run s (.ok ())
        s.state.state [] := Does.op (fun _ => rfl) fun env _ => ⟨(), rfl, Does.ret hs rfl⟩
    refine hsleep.bind fun s' hs' h' => ?_
    rw [← h']
    exact does_performActions hs' fun d v h => hr d v (List.mem_cons_of_mem _ h)

/-- **A stop runs from every state but `quit`**, to `Standby`. -/
theorem does_emergencyStop (hs : Healthy n s) (hq : s.state.state ≠ .quit)
    (hr : CommandInRange config n .emergencyStop) :
    Does config (fun env => env.pinFails = false) n (emergencyStop config).run s (.ok ())
      .standby (actuations config.estopSequence) := by
  have hstop : Does config (fun env => env.pinFails = false) n (moveTo .eStopping).run s (.ok ())
      .eStopping [] := does_moveTo hs ((validTransition_eStopping _).mpr hq)
  have hactions : ∀ s', Healthy n s' → s'.state.state = .eStopping →
      Does config (fun env => env.pinFails = false) n (performActions config.estopSequence).run s'
        (.ok ()) .eStopping (actuations config.estopSequence) := by
    intro s' hs' h'
    rw [← h']
    exact does_performActions hs' hr
  have hrest : ∀ s', Healthy n s' → s'.state.state = .eStopping →
      Does config (fun env => env.pinFails = false) n
        (performActions config.estopSequence >>= fun _ => moveTo .standby).run s' (.ok ())
        .standby (actuations config.estopSequence ++ []) := fun s₁ hs₁ h₁ =>
    (hactions s₁ hs₁ h₁).bind fun s₂ hs₂ h₂ => does_moveTo hs₂ (by rw [h₂]; rfl)
  rw [List.append_nil] at hrest
  exact hstop.bind hrest

/-! ## 5. No command panics by itself -/

theorem moveTo_noPanic (newState : State) : (moveTo newState).run.NoPanic := by
  intro a
  cases a <;> trivial

theorem write_noPanic (driverId : UInt8) (value : Bool) : (write driverId value).run.NoPanic := by
  intro a
  cases a <;> trivial

theorem sleep_noPanic (duration : Duration) : (sleep duration).run.NoPanic := fun _ => trivial

theorem performActions_noPanic : ∀ actions : List Action, (performActions actions).run.NoPanic
  | [] => trivial
  | .actuate driverId value :: rest =>
    Fallible.noPanic_bind (write_noPanic driverId value) fun _ => performActions_noPanic rest
  | .sleep duration :: rest =>
    Fallible.noPanic_bind (sleep_noPanic duration) fun _ => performActions_noPanic rest

theorem emergencyStop_noPanic (config : Configuration) : (emergencyStop config).run.NoPanic :=
  Fallible.noPanic_bind (moveTo_noPanic _) fun _ =>
    Fallible.noPanic_bind (performActions_noPanic _) fun _ => moveTo_noPanic _

theorem ignition_noPanic (config : Configuration) : (ignition config).run.NoPanic :=
  Fallible.noPanic_bind (moveTo_noPanic _) fun _ => Fallible.noPanic_bind (sleep_noPanic _) fun _ =>
    Fallible.noPanic_bind (moveTo_noPanic _) fun _ => Fallible.noPanic_bind (performActions_noPanic _) fun _ =>
      Fallible.noPanic_bind (moveTo_noPanic _) fun _ => Fallible.noPanic_bind (sleep_noPanic _) fun _ =>
        moveTo_noPanic _

theorem execute_noPanic (config : Configuration) (cmd : Command) :
    (execute config cmd).run.NoPanic := by
  cases cmd with
  | ignition => exact ignition_noPanic config
  | emergencyStop => exact emergencyStop_noPanic config
  | actuate driverId value =>
    simp only [execute]
    split
    · trivial
    · exact write_noPanic driverId value

theorem logCommand_noPanic (time : Nat) (tag : LogTag) (cmd : Command) :
    (logCommand time tag cmd).run.NoPanic := by
  intro a
  match a with
  | .ok () => trivial
  | .error .poisoned => trivial
  | .error .io => exact fun _ => trivial

theorem handleCommand_noPanic (config : Configuration) (cmd : Command) :
    (handleCommand config cmd).run.NoPanic :=
  Fallible.noPanic_bind (fun _ => trivial) fun _ => Fallible.noPanic_bind (fun _ => trivial) fun _ =>
    Fallible.noPanic_bind (logCommand_noPanic _ _ _) fun _ => Fallible.noPanic_bind (execute_noPanic config cmd) fun _ =>
      Fallible.noPanic_bind (fun _ => trivial) fun _ => logCommand_noPanic _ _ _

end Slonk
