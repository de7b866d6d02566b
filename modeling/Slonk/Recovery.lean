/-
# A stop recovers from any past failure

Commands handled one after the other, with writes that fail as they like, can strand the guard in
`Ignite` or `EStopping` with half a sequence applied.  What they cannot do, with identifiers in
range, is poison a lock or move the guard to `Quit`; and those are the only two things that could
keep a stop from being let in.  So a stop whose own writes succeed always runs to its end.
-/
import Slonk.Sequential

namespace Slonk

open Concurrency

variable {config : Configuration} {cmd : Command} {n : Nat} {s s₀ : Shared}

/-! ## 1. Histories -/

/-- The shared state after these commands, handled one after the other, each under its own
decisions of the outside world. -/
def handleAll (config : Configuration) : List (Command × (Nat → Env)) → Shared → Shared
  | [], s => s
  | (cmd, ω) :: rest, s =>
    handleAll config rest (eval (machine config) (handleCommand config cmd).run ω s).shared

/-- What no command in range can spoil: the locks are sound, and the guard has not quit. -/
structure Recoverable (n : Nat) (s : Shared) : Prop where
  healthy : Healthy n s
  running : s.state.state ≠ .quit

/-- **A command in range returns, and leaves a recoverable state recoverable**, whatever
fails. -/
theorem Recoverable.handleCommand (hs : Recoverable n s) (hc : CommandInRange config n cmd)
    (ω : Nat → Env) :
    (∃ r, (eval (machine config) (handleCommand config cmd).run ω s).outcome = .returned r) ∧
      Recoverable n (eval (machine config) (handleCommand config cmd).run ω s).shared := by
  have hexec : ∀ (o : Op) (env : Env) (s : Shared),
      (InRange n o ∧ (machine config).fork o = none ∧ o ≠ .moveTo .quit) → Recoverable n s →
      (exec o env s).1 ≠ none ∧ Recoverable n (exec o env s).2 := by
    intro o env s ho hs
    obtain ⟨hans, hs'⟩ := exec_healthy env ho.1 hs.healthy
    refine ⟨hans, hs', ?_⟩
    by_cases hm : ∃ newState, o = .moveTo newState
    · obtain ⟨newState, rfl⟩ := hm
      exact Guard.moveTo_ne_quit hs.running fun h => ho.2.2 (congrArg Op.moveTo h)
    · rw [exec_state (fun newState h => hm ⟨newState, h⟩)]
      exact hs.running
  have hspec := Spec.invariant (M := machine config) (E := fun _ => True) hexec
    (handleCommand_inRange hc) (handleCommand_noPanic config cmd) hs
  obtain ⟨r, hr, hinv⟩ := hspec ω fun _ => trivial
  exact ⟨⟨r, hr⟩, hinv⟩

/-- So does a whole history. -/
theorem Recoverable.handleAll : ∀ {history : List (Command × (Nat → Env))} {s : Shared},
    Recoverable n s → (∀ c ∈ history, CommandInRange config n c.1) →
    Recoverable n (handleAll config history s)
  | [], _, hs, _ => hs
  | (_, ω) :: _, _, hs, hc =>
    ((hs.handleCommand (hc _ List.mem_cons_self) ω).2).handleAll
      fun c h => hc c (List.mem_cons_of_mem _ h)

/-! ## 2. The stop -/

/-- A stop, after a history. -/
def stopAfter (config : Configuration) (history : List (Command × (Nat → Env))) (ω : Nat → Env)
    (s₀ : Shared) : Result Op.Ans (Except ExecutionError Unit) Shared :=
  eval (machine config) (handleCommand config .emergencyStop).run ω (handleAll config history s₀)

/-- **Emergency stop recovers from any past failure.**  After any history of commands in range
from `Standby`, failing writes included, a stop whose writes succeed returns `Ok`, leaves the
guard in `Standby`, each driver of `estop_sequence` at the value of its last actuation there and
every other driver as it was. -/
theorem estop_recovers (config : Configuration) (n : Nat) (s₀ : Shared) (h₀ : Healthy n s₀)
    (hstart : s₀.state.state = .standby)
    (hign : ∀ driverId value, .actuate driverId value ∈ config.ignitionSequence →
      driverId.toNat < n)
    (hestop : ∀ driverId value, .actuate driverId value ∈ config.estopSequence →
      driverId.toNat < n)
    (history : List (Command × (Nat → Env)))
    (hact : ∀ c ∈ history, ∀ driverId value, c.1 = .actuate driverId value → driverId.toNat < n)
    (ω : Nat → Env) (hω : ∀ k, (ω k).pinFails = false) :
    (stopAfter config history ω s₀).outcome = .returned (.ok ()) ∧
      (stopAfter config history ω s₀).shared.state.state = .standby ∧
      ∀ d < n, (stopAfter config history ω s₀).shared.driverLines.val[d]?
        = (lastWrite (actuations config.estopSequence) d).or
            (handleAll config history s₀).driverLines.val[d]? := by
  have hrec : Recoverable n (handleAll config history s₀) := by
    refine Recoverable.handleAll ⟨h₀, by rw [hstart]; nofun⟩ fun c hc => ?_
    obtain ⟨cmd, ω'⟩ := c
    cases cmd with
    | actuate driverId value => exact hact _ hc driverId value rfl
    | ignition => exact hign
    | emergencyStop => exact hestop
  have hdoes : Does config (fun env => env.pinFails = false) n
      (handleCommand config .emergencyStop).run (handleAll config history s₀) (.ok ()) .standby
      (actuations config.estopSequence) :=
    does_handleCommand hrec.healthy fun s' hs' h' =>
      does_emergencyStop hs' (by rw [h']; exact hrec.running) hestop
  obtain ⟨r, hr, rfl, hperf⟩ := hdoes ω hω
  refine ⟨hr, hperf.state, fun d hd => ?_⟩
  unfold stopAfter
  rw [eval_levels, eval_landed _ hω, hperf.writes, getElem?_applyWrites]
  rw [hrec.healthy.length]
  exact hd

/-- An ignition whose first write fails leaves the guard in `Ignite`; a stop takes it back. -/
theorem estop_recovers_from_failed_ignition :
    (stopAfter (Configuration.oneDriver [.actuate 0 true] [.actuate 0 false])
        [(.ignition, fun _ => { Env.fine with pinFails := true })] (fun _ => Env.fine)
        (Shared.new [true])).shared.state.state = .standby :=
  (estop_recovers (Configuration.oneDriver [.actuate 0 true] [.actuate 0 false]) 1
    (Shared.new [true]) (healthy_new [true]) rfl
    (by simp [Configuration.oneDriver]) (by simp [Configuration.oneDriver])
    [(.ignition, fun _ => { Env.fine with pinFails := true })] (by simp) (fun _ => Env.fine)
    (fun _ => rfl)).2.1

end Slonk
