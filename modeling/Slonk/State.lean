/-
# The state guard

`state.rs`: the states the engine controller can be in, and the `Guard` through which the
threads read and change the current one.  `Guard.moveTo` is the only way to change it; it
compares the current value with the table below and refuses every other transition.

    into        allowed from
    standby     eStopping, postIgnite
    preIgnite   standby
    ignite      preIgnite
    postIgnite  ignite
    eStopping   everything except quit (eStopping included)
    quit        standby

The `RwLock` around the value is the `poisoned` flag: a poisoned guard refuses everything.  No
code of the controller panics while it holds the lock, so nothing here ever sets the flag.
-/
import Mathlib.Tactic

namespace Slonk

/-- The set of all states the engine controller can be in. -/
inductive State
  | standby
  | preIgnite
  | ignite
  | postIgnite
  | eStopping
  | quit
  deriving DecidableEq, Repr

/-- `state::Error`. -/
inductive StateError
  | poison
  | illegalTransition (fromState toState : State)
  deriving DecidableEq, Repr

/-- `Guard`: the current state, and whether its lock is poisoned. -/
structure Guard where
  state : State
  poisoned : Bool
  deriving DecidableEq, Repr

/-- `Guard::new`. -/
def Guard.new (state : State) : Guard := ⟨state, false⟩

/-- `Guard::status`. -/
def Guard.status (g : Guard) : Except StateError State :=
  if g.poisoned then .error .poison else .ok g.state

/-- The table in `Guard::move_to`: may `oldState` be left for `newState`? -/
def validTransition (oldState newState : State) : Bool :=
  match newState with
  | .standby => oldState == .eStopping || oldState == .postIgnite
  | .preIgnite | .quit => oldState == .standby
  | .ignite => oldState == .preIgnite
  | .postIgnite => oldState == .ignite
  | .eStopping => oldState != .quit

/-- `Guard::move_to`: the result, and the guard afterwards. -/
def Guard.moveTo (g : Guard) (newState : State) : Except StateError Unit × Guard :=
  if g.poisoned then (.error .poison, g)
  else if validTransition g.state newState then (.ok (), { g with state := newState })
  else (.error (.illegalTransition g.state newState), g)

/-! ## What `moveTo` does -/

theorem Guard.moveTo_of_valid {g : Guard} {newState : State} (hp : g.poisoned = false)
    (hv : validTransition g.state newState = true) :
    g.moveTo newState = (.ok (), { g with state := newState }) := by
  simp [Guard.moveTo, hp, hv]

/-- A transition that succeeds was allowed by the table, and installs its target. -/
theorem Guard.moveTo_ok {g : Guard} {newState : State} (h : (g.moveTo newState).1 = .ok ()) :
    g.poisoned = false ∧ validTransition g.state newState = true ∧
      (g.moveTo newState).2 = { g with state := newState } := by
  unfold Guard.moveTo at h ⊢
  split at h
  · cases h
  · rename_i hp
    split at h
    · rename_i hv
      exact ⟨by simpa using hp, hv, by simp [hp, hv]⟩
    · cases h

/-- A transition that fails changes nothing. -/
theorem Guard.moveTo_error {g : Guard} {newState : State} {e : StateError}
    (h : (g.moveTo newState).1 = .error e) : (g.moveTo newState).2 = g := by
  unfold Guard.moveTo at h ⊢
  split at h
  · rename_i hp; simp [hp]
  · rename_i hp
    split at h
    · cases h
    · rename_i hv; simp [hp, hv]

/-- Nothing poisons the guard. -/
@[simp] theorem Guard.moveTo_poisoned (g : Guard) (newState : State) :
    (g.moveTo newState).2.poisoned = g.poisoned := by
  unfold Guard.moveTo
  split
  · rfl
  · split <;> rfl

/-- A guard that is not shutting down stays so, unless it is asked to quit. -/
theorem Guard.moveTo_ne_quit {g : Guard} {newState : State} (hg : g.state ≠ .quit)
    (hn : newState ≠ .quit) : (g.moveTo newState).2.state ≠ .quit := by
  unfold Guard.moveTo
  split
  · exact hg
  · split
    · exact hn
    · exact hg

/-- **Every state except `quit` can be left for `eStopping`.** -/
theorem validTransition_eStopping (oldState : State) :
    validTransition oldState .eStopping = true ↔ oldState ≠ .quit := by
  cases oldState <;> decide

end Slonk
