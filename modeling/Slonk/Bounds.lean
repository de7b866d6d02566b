/-
# The boundary identifier

A driver exists if its identifier is *below* the number of drivers.  `Configuration::parse` and
`handle_command` both compare with `>`, so both let the number of drivers itself through, and the
indexing behind them panics on it while it holds the lock.  The two results of this file say that
this one identifier is all that goes wrong: for the sequences of an accepted configuration, and
for the `Actuate` commands of the dashboard.
-/
import Slonk.Sequential

namespace Slonk

open Concurrency

variable {config : Configuration} {cmd : Command} {n : Nat} {s s' : Shared} {E : Env → Prop}

/-! ## 1. Sequences of actions -/

/-- A sequence that stays in range does not panic, whatever fails. -/
theorem performActions_returns {actions : List Action}
    (hr : ∀ driverId value, .actuate driverId value ∈ actions → driverId.toNat < n)
    (hlen : s.driverLines.val.length = n) (ω : Nat → Env) :
    (eval (machine config) (performActions actions).run ω s).outcome ≠ .panicked := by
  have hexec : ∀ (o : Op) (env : Env) (s : Shared),
      ((∃ duration, o = .sleep duration) ∨
        ∃ driverId value, o = .write driverId value ∧ driverId.toNat < n) →
      s.driverLines.val.length = n →
      ((machine config).exec o env s).1 ≠ none ∧
        ((machine config).exec o env s).2.driverLines.val.length = n := by
    rintro o env s (⟨duration, rfl⟩ | ⟨driverId, value, rfl, hlt⟩) hlen
    · exact ⟨nofun, hlen⟩
    · refine ⟨?_, (exec_lines _ env s).1.trans hlen⟩
      rw [machine_exec]
      cases hp : s.driverLines.poisoned with
      | true => rw [exec_write_of_poisoned hp]; nofun
      | false =>
        rw [exec_write_of_lt hp (hlen.symm ▸ hlt)]
        split <;> nofun
  have hspec := Spec.invariant (M := machine config) (E := fun _ => True) hexec
    (performActions_all (fun d => Or.inl ⟨d, rfl⟩) fun d v h => Or.inr ⟨d, v, rfl, hr d v h⟩)
    (performActions_noPanic actions) hlen
  obtain ⟨r, hr, -⟩ := hspec ω fun _ => trivial
  rw [hr]
  nofun

/-- **A sequence that goes out of range panics**, once no earlier write fails. -/
theorem performActions_panics : ∀ {actions : List Action} {s : Shared},
    s.driverLines.val.length = n → s.driverLines.poisoned = false →
    (∃ driverId value, .actuate driverId value ∈ actions ∧ n ≤ driverId.toNat) →
    Panics (machine config) (fun env => env.pinFails = false) (performActions actions).run s
  | [], _, _, _, h => by
    obtain ⟨d, v, hm, -⟩ := h
    cases hm
  | .sleep duration :: rest, s, hlen, hp, h => by
    refine Panics.op fun env _ => ⟨(), rfl, performActions_panics hlen hp ?_⟩
    obtain ⟨d, v, hm, hd⟩ := h
    rcases List.mem_cons.mp hm with heq | hm
    · cases heq
    · exact ⟨d, v, hm, hd⟩
  | .actuate driverId value :: rest, s, hlen, hp, h => by
    by_cases hlt : driverId.toNat < n
    · refine Panics.op fun env henv => ⟨.ok (), ?_, ?_⟩
      · rw [machine_exec, exec_write_of_lt hp (hlen.symm ▸ hlt), henv]
        rfl
      · have hs' := exec_write_of_lt hp (hlen.symm ▸ hlt) value env
        rw [henv] at hs'
        rw [machine_exec, hs']
        refine performActions_panics (List.length_set.trans hlen) hp ?_
        obtain ⟨d, v, hm, hd⟩ := h
        rcases List.mem_cons.mp hm with heq | hm
        · obtain ⟨rfl, rfl⟩ := Action.actuate.inj heq
          exact absurd hlt (Nat.not_lt.mpr hd)
        · exact ⟨d, v, hm, hd⟩
    · refine Panics.op_none fun env _ => ?_
      rw [machine_exec, exec_write_of_ge hp (hlen.symm ▸ Nat.not_lt.mp hlt)]

/-- Running either sequence of the configuration never panics. -/
def NeverOutOfBounds (config : Configuration) (s : Shared) : Prop :=
  ∀ actions ∈ [config.ignitionSequence, config.estopSequence], ∀ ω,
    (eval (machine config) (performActions actions).run ω s).outcome ≠ .panicked

/-- Every actuation of either sequence names a driver that exists. -/
def DriversExist (config : Configuration) : Prop :=
  ∀ actions ∈ [config.ignitionSequence, config.estopSequence], ∀ driverId value,
    .actuate driverId value ∈ actions → driverId.toNat < config.drivers.length

/-- No actuation of either sequence has the number of drivers for its identifier. -/
def NoneAtBoundary (config : Configuration) : Prop :=
  ∀ actions ∈ [config.ignitionSequence, config.estopSequence], ∀ driverId value,
    .actuate driverId value ∈ actions → driverId.toNat ≠ config.drivers.length

/-- **An accepted configuration can be executed exactly when no identifier in it is the number
of drivers.** -/
theorem accepted_executable_iff {Source : Type}
    (fromReader : Source → Except String Configuration) (source : Source)
    (config : Configuration) (h : Configuration.parse fromReader source = .ok config)
    (s : Shared) (hlines : s.driverLines.val.length = config.drivers.length)
    (hp : s.driverLines.poisoned = false) :
    (NeverOutOfBounds config s ∧ DriversExist config ↔ NoneAtBoundary config) ∧
      (NeverOutOfBounds config s ↔ DriversExist config) := by
  obtain ⟨-, haccepted⟩ := Configuration.accepted_of_parse h
  have hle : ∀ actions ∈ [config.ignitionSequence, config.estopSequence], ∀ driverId value,
      .actuate driverId value ∈ actions → driverId.toNat ≤ config.drivers.length := by
    intro actions ha driverId value hm
    have hmem : .actuate driverId value ∈ config.ignitionSequence ++ config.estopSequence := by
      rcases List.mem_pair.mp ha with rfl | rfl
      · exact List.mem_append_left _ hm
      · exact List.mem_append_right _ hm
    exact haccepted.driverId_le hmem
  have hexist : DriversExist config ↔ NoneAtBoundary config := by
    constructor
    · intro hd actions ha driverId value hm
      exact Nat.ne_of_lt (hd actions ha driverId value hm)
    · intro hb actions ha driverId value hm
      exact Nat.lt_of_le_of_ne (hle actions ha driverId value hm) (hb actions ha driverId value hm)
  have hnever : NeverOutOfBounds config s ↔ DriversExist config := by
    constructor
    · intro hn actions ha driverId value hm
      by_contra hlt
      exact hn actions ha (fun _ => Env.fine) (performActions_panics hlines hp
        ⟨driverId, value, hm, Nat.not_lt.mp hlt⟩ (fun _ => Env.fine) fun _ => rfl)
    · intro hd actions ha ω
      exact performActions_returns (hd actions ha) hlines ω
  exact ⟨⟨fun h => hexist.mp h.2, fun h => ⟨hnever.mpr (hexist.mpr h), hexist.mpr h⟩⟩, hnever⟩

/-- The one-driver stand with sequences it can run. -/
theorem oneDriver_executable :
    NeverOutOfBounds (Configuration.oneDriver [.actuate 0 true] [.actuate 0 false])
      (Shared.new [false]) :=
  (accepted_executable_iff
    (fun _ : Unit => .ok (Configuration.oneDriver [.actuate 0 true] [.actuate 0 false])) ()
    (Configuration.oneDriver [.actuate 0 true] [.actuate 0 false]) rfl (Shared.new [false]) rfl
    rfl).2.mpr (by simp [DriversExist, Configuration.oneDriver])

/-- The one-driver stand with an ignition that names driver 1 is accepted, and panics. -/
theorem boundary_driver_accepted :
    Configuration.parse (fun _ : Unit => .ok (Configuration.oneDriver [.actuate 1 true] [])) ()
        = .ok (Configuration.oneDriver [.actuate 1 true] []) ∧
      ¬ NeverOutOfBounds (Configuration.oneDriver [.actuate 1 true] []) (Shared.new [false]) ∧
      ¬ DriversExist (Configuration.oneDriver [.actuate 1 true] []) := by
  refine ⟨rfl, fun h => ?_, fun h => ?_⟩
  · exact h [.actuate 1 true] (by simp [Configuration.oneDriver]) (fun _ => Env.fine) rfl
  · exact absurd (h [.actuate 1 true] (by simp [Configuration.oneDriver]) 1 true (by simp))
      (by decide)

/-! ## 2. Actuate commands -/

/-- A write that succeeded is a write. -/
theorem wrote_of_landed {c : Call Op.Ans} {w : UInt8 × Bool} (h : landed c = some w) :
    wrote c = some w := by
  match c with
  | ⟨.write _ _, some (.ok ())⟩ => exact h

theorem landed_sublist (h : List (Call Op.Ans)) : (h.filterMap landed).Sublist (h.filterMap wrote) := by
  induction h with
  | nil => exact .slnil
  | cons c h ih =>
    cases hl : landed c with
    | none =>
      rw [List.filterMap_cons_none hl]
      cases hw : wrote c with
      | none => rwa [List.filterMap_cons_none hw]
      | some w => rw [List.filterMap_cons_some hw]; exact ih.cons w
    | some w =>
      rw [List.filterMap_cons_some hl, List.filterMap_cons_some (wrote_of_landed hl)]
      exact ih.cons_cons w

/-- An `Actuate` command on the state `s`, under the decisions `ω` of the outside world. -/
def actuate (config : Configuration) (driverId : UInt8) (value : Bool) (ω : Nat → Env)
    (s : Shared) : Result Op.Ans (Except ExecutionError Unit) Shared :=
  eval (machine config) (handleCommand config (.actuate driverId value)).run ω s

/-- One `Actuate` command is safe: it does not panic, so the lock stays sound; it is refused
exactly when the driver does not exist, and then the lines do not change; otherwise exactly the
addressed line is written, with the given value, and the others stay as they are. -/
structure ActuateSafe (config : Configuration) (driverId : UInt8) (value : Bool) (ω : Nat → Env)
    (s : Shared) : Prop where
  returns : (actuate config driverId value ω s).outcome ≠ .panicked
  sound : (actuate config driverId value ω s).shared.driverLines.poisoned = false
  refused : (actuate config driverId value ω s).outcome = .returned (.error .driverOutOfBounds) ↔
    ¬ driverId.toNat < config.drivers.length
  unchanged : ¬ driverId.toNat < config.drivers.length →
    (actuate config driverId value ω s).shared.driverLines = s.driverLines
  written : driverId.toNat < config.drivers.length →
    (actuate config driverId value ω s).calls.filterMap wrote = [(driverId, value)]
  others : driverId.toNat < config.drivers.length → ∀ d, d ≠ driverId.toNat →
    (actuate config driverId value ω s).shared.driverLines.val[d]? = s.driverLines.val[d]?
  /-- the level follows the write, unless the pin fails -/
  level : driverId.toNat < config.drivers.length → (∀ k, (ω k).pinFails = false) →
    (actuate config driverId value ω s).shared.driverLines.val
      = s.driverLines.val.set driverId.toNat value

/-- Every command of this sequence is safe, each on the state that the one before it left. -/
def ActuatesSafe (config : Configuration) : List (UInt8 × Bool × (Nat → Env)) → Shared → Prop
  | [], _ => True
  | (driverId, value, ω) :: rest, s =>
    ActuateSafe config driverId value ω s ∧
      ActuatesSafe config rest (actuate config driverId value ω s).shared

/-- An identifier beyond the boundary is refused. -/
theorem does_actuate_beyond (hs : Healthy n s) {driverId : UInt8} (value : Bool)
    (h : config.drivers.length < driverId.toNat) :
    Does config E n (handleCommand config (.actuate driverId value)).run s
      (.error .driverOutOfBounds) s.state.state [] := by
  have hexec : ∀ s', Healthy n s' → s'.state.state = s.state.state →
      Does config E n (execute config (.actuate driverId value) >>= fun _ =>
        epilogue (.actuate driverId value)).run s' (.error .driverOutOfBounds) s.state.state [] := by
    intro s' hs' h'
    refine Does.bind_error ?_
    simp only [execute, gt_iff_lt, if_pos h]
    exact Does.ret hs' h'
  rw [handleCommand_eq]
  exact (does_prologue hs _).bind hexec

/-- One write in range, whether or not the pin fails. -/
theorem spec_write (hs : Healthy n s) {driverId : UInt8} (hlt : driverId.toNat < n) (value : Bool) :
    Spec (machine config) E (write driverId value).run s fun r h s' =>
      (r = .ok () ∨ r = .error .poison) ∧
        Performs n s.state.state [(driverId, value)] h s' := by
  refine Spec.op fun env _ => ?_
  obtain ⟨-, hs'⟩ := exec_healthy (o := .write driverId value) env hlt hs
  have hexec := exec_write_of_lt hs.driverLines (hs.length.symm ▸ hlt) value env
  rw [machine_exec]
  rw [hexec] at hs' ⊢
  cases hf : env.pinFails with
  | true =>
    rw [hf, if_pos rfl] at hs'
    exact ⟨.error .gpio, rfl, Spec.ret ⟨Or.inr rfl, hs', rfl, rfl⟩⟩
  | false =>
    rw [hf, if_neg nofun] at hs'
    exact ⟨.ok (), rfl, Spec.ret ⟨Or.inl rfl, hs', rfl, rfl⟩⟩

/-- **An identifier below the boundary is written**, once. -/
theorem spec_actuate_below (hs : Healthy n s) {driverId : UInt8} (value : Bool)
    (hlt : driverId.toNat < n) (h : driverId.toNat ≤ config.drivers.length) :
    Spec (machine config) E (handleCommand config (.actuate driverId value)).run s fun r h s' =>
      (r = .ok () ∨ r = .error .poison) ∧
        Performs n s.state.state [(driverId, value)] h s' := by
  rw [handleCommand_eq]
  refine Spec.bind (f := thenRun _) ((does_prologue hs _).mono ?_)
  rintro _ h₁ s₁ ⟨rfl, hp₁⟩
  refine Spec.bind (f := thenRun _) ?_
  simp only [execute, if_neg (Nat.not_lt.mpr h), gt_iff_lt]
  refine (spec_write hp₁.healthy hlt value).mono ?_
  rintro r h₂ s₂ ⟨rfl | rfl, hp₂⟩
  · refine (does_epilogue hp₂.healthy _).mono ?_
    rintro _ h₃ s₃ ⟨rfl, hp₃⟩
    refine ⟨Or.inl rfl, ?_⟩
    have := hp₁.append (hp₂.append hp₃)
    rwa [hp₂.state, hp₁.state] at this
  · refine Spec.ret ⟨Or.inr rfl, ?_⟩
    have := hp₁.append hp₂
    rwa [hp₁.state, ← List.append_nil h₂] at this

/-- **The boundary identifier panics.** -/
theorem actuate_boundary_panics (hs : Healthy config.drivers.length s) {driverId : UInt8}
    (value : Bool) (h : driverId.toNat = config.drivers.length) :
    Panics (machine config) E (handleCommand config (.actuate driverId value)).run s := by
  rw [handleCommand_eq]
  refine Panics.bind (f := thenRun _) ((does_prologue hs _).mono ?_)
  rintro _ h₁ s₁ ⟨rfl, hp₁⟩
  refine Panics.bind_left (f := thenRun _) ?_
  simp only [execute, gt_iff_lt, if_neg (Nat.not_lt.mpr h.le)]
  refine Panics.op_none fun env _ => ?_
  rw [machine_exec, exec_write_of_ge hp₁.healthy.driverLines]
  rw [hp₁.healthy.length, h]

/-- What a command leaves when its identifier is not the boundary one. -/
theorem actuate_healthy (hs : Healthy config.drivers.length s) {driverId : UInt8} (value : Bool)
    (h : driverId.toNat ≠ config.drivers.length) (ω : Nat → Env) :
    Healthy config.drivers.length (actuate config driverId value ω s).shared := by
  by_cases hlt : driverId.toNat < config.drivers.length
  · obtain ⟨r, -, -, hp⟩ := spec_actuate_below (E := fun _ => True) hs value hlt hlt.le ω
      fun _ => trivial
    exact hp.healthy
  · have hbeyond : config.drivers.length < driverId.toNat := by omega
    obtain ⟨r, -, -, hp⟩ := does_actuate_beyond (E := fun _ => True) hs value hbeyond ω
      fun _ => trivial
    exact hp.healthy

/-- **A command whose identifier is not the boundary one is safe.** -/
theorem actuateSafe_of_ne (hs : Healthy config.drivers.length s) {driverId : UInt8} (value : Bool)
    (h : driverId.toNat ≠ config.drivers.length) (ω : Nat → Env) :
    ActuateSafe config driverId value ω s := by
  have hsound := (actuate_healthy hs value h ω).driverLines
  have hlevels : (actuate config driverId value ω s).shared.driverLines.val
      = applyWrites s.driverLines.val ((actuate config driverId value ω s).calls.filterMap landed) :=
    eval_levels _ _ _
  by_cases hlt : driverId.toNat < config.drivers.length
  · obtain ⟨r, hr, hcases, hp⟩ := spec_actuate_below (E := fun _ => True) hs value hlt hlt.le ω
      fun _ => trivial
    have hwritten : (actuate config driverId value ω s).calls.filterMap wrote
        = [(driverId, value)] := hp.writes
    constructor
    case returns => exact fun hpanic => by rw [actuate, hr] at hpanic; cases hpanic
    case sound => exact hsound
    case refused =>
      refine ⟨fun hrefused => ?_, fun hge => absurd hlt hge⟩
      rw [actuate, hr] at hrefused
      rcases hcases with rfl | rfl <;> cases hrefused
    case unchanged => exact fun hge => absurd hlt hge
    case written => exact fun _ => hwritten
    case others =>
      intro _ d hd
      rw [hlevels]
      have hsub := landed_sublist (actuate config driverId value ω s).calls
      rw [hwritten] at hsub
      rcases List.sublist_singleton.mp hsub with hnil | hone
      · rw [hnil]; rfl
      · rw [hone]; exact List.getElem?_set_ne hd.symm
    case level =>
      intro _ hω
      rw [hlevels, actuate, eval_landed _ hω]
      exact congrArg (applyWrites _) hwritten
  · have hbeyond : config.drivers.length < driverId.toNat := by omega
    obtain ⟨r, hr, rfl, hp⟩ := does_actuate_beyond (E := fun _ => True) hs value hbeyond ω
      fun _ => trivial
    have hnone : (actuate config driverId value ω s).calls.filterMap landed = [] := by
      have hsub := landed_sublist (actuate config driverId value ω s).calls
      rw [show (actuate config driverId value ω s).calls.filterMap wrote = [] from hp.writes] at hsub
      exact List.sublist_nil.mp hsub
    constructor
    case returns => exact fun hpanic => by rw [actuate, hr] at hpanic; cases hpanic
    case sound => exact hsound
    case refused => exact ⟨fun _ => hlt, fun _ => hr⟩
    case unchanged =>
      intro _
      rw [hnone] at hlevels
      have hpoisoned := hsound.trans hs.driverLines.symm
      generalize (actuate config driverId value ω s).shared.driverLines = lines at *
      cases lines
      obtain ⟨rfl, rfl⟩ : _ ∧ _ := ⟨hlevels, hpoisoned⟩
      rfl
    case written => exact fun h => absurd h hlt
    case others => exact fun h => absurd h hlt
    case level => exact fun h => absurd h hlt

/-- The boundary identifier is not safe, whatever the outside world decides. -/
theorem not_actuateSafe_boundary (hs : Healthy config.drivers.length s) {driverId : UInt8}
    (value : Bool) (h : driverId.toNat = config.drivers.length) (ω : Nat → Env) :
    ¬ ActuateSafe config driverId value ω s := fun hsafe =>
  hsafe.returns (actuate_boundary_panics (E := fun _ => True) hs value h ω fun _ => trivial)

/-- **Exactly when the dashboard cannot take down the driver lines**: a sequence of `Actuate`
commands is safe if and only if none of them names the number of drivers. -/
theorem actuates_safe_iff {Source : Type} (fromReader : Source → Except String Configuration)
    (source : Source) (config : Configuration)
    (_ : Configuration.parse fromReader source = .ok config)
    (calls : List (UInt8 × Bool × (Nat → Env))) (s : Shared)
    (hs : Healthy config.drivers.length s) :
    ActuatesSafe config calls s ↔ ∀ c ∈ calls, c.1.toNat ≠ config.drivers.length := by
  induction calls generalizing s with
  | nil => exact ⟨fun _ => nofun, fun _ => trivial⟩
  | cons c rest ih =>
    obtain ⟨driverId, value, ω⟩ := c
    rw [List.forall_mem_cons]
    constructor
    · rintro ⟨hsafe, hrest⟩
      have hne : driverId.toNat ≠ config.drivers.length := fun h =>
        not_actuateSafe_boundary hs value h ω hsafe
      exact ⟨hne, (ih _ (actuate_healthy hs value hne ω)).mp hrest⟩
    · rintro ⟨hne, hrest⟩
      exact ⟨actuateSafe_of_ne hs value hne ω, (ih _ (actuate_healthy hs value hne ω)).mpr hrest⟩

/-- On the one-driver stand, driver 0 is written, driver 2 is refused, and driver 0 is written
again by a pin that fails. -/
theorem oneDriver_actuates_safe :
    ActuatesSafe (Configuration.oneDriver [] [])
      [(0, true, fun _ => Env.fine), (2, true, fun _ => Env.fine),
        (0, false, fun _ => { Env.fine with pinFails := true })] (Shared.new [false]) :=
  (actuates_safe_iff (fun _ : Unit => .ok (Configuration.oneDriver [] [])) ()
    (Configuration.oneDriver [] []) rfl _ (Shared.new [false]) (healthy_new [false])).mpr
    (by simp [Configuration.oneDriver])

/-- On the one-driver stand, `Actuate` of driver 1 panics and poisons the lock. -/
theorem boundary_actuate_unsafe :
    Configuration.parse (fun _ : Unit => .ok (Configuration.oneDriver [] [])) ()
        = .ok (Configuration.oneDriver [] []) ∧
      (actuate (Configuration.oneDriver [] []) 1 true (fun _ => Env.fine)
        (Shared.new [false])).shared.driverLines.poisoned = true ∧
      ¬ ActuatesSafe (Configuration.oneDriver [] []) [(1, true, fun _ => Env.fine)]
        (Shared.new [false]) := by
  refine ⟨rfl, rfl, fun h => ?_⟩
  exact h.1.returns rfl

end Slonk
