/-
# Who installed the state a procedure leaves

`Guard::move_to` compares state values only.  A procedure that is about to leave a state for the
next one of its sequence therefore goes on whenever the guard *holds* that state, whether it
installed it itself (`OwnsPhases`) or another invocation did in the meantime: a late ignition
overtaken by a stop goes on to `Ignite` on the strength of the next ignition's `PreIgnite`.

What makes the difference is one thing: an invocation that installs a state from which some
*other* invocation, still on its way, would go on (`Overtakes`).  Where no step does that, every
procedure leaves only states of its own; and after a step that does, the other invocation can.
-/
import Slonk.Continuations

namespace Slonk

open Concurrency

variable {config : Configuration} {kinds : List Procedure} {shared : Shared}
  {m m' s s' : System} {e : Event Op.Ans} {t t₁ t₂ : Trace} {stage : Stage}

/-! ## 1. Ownership, and what spoils it -/

/-- **Procedures own the phases they advance**: whenever an invocation's second or later
`move_to` succeeds, the last successful `move_to` before it was its own and installed the state
the guard holds. -/
def OwnsPhases (config : Configuration) (s₀ : System) (t : Trace) (s : System) : Prop :=
  ∀ t₁ m e m' t₂, Moment (machine config) s₀ t s t₁ m e m' t₂ →
    (∃ e₀ ∈ t₁, e₀.tid = e.tid ∧ moved e₀.call ≠ none) → moved e.call ≠ none →
    (installs t₁).getLast? = some (e.tid, m.shared.state.state)

/-- With the guard at `newState`, invocation `j` would go on: it is at a stage whose next
transition leaves `newState`, and nothing keeps it from getting there. -/
def Overtakes (config : Configuration) (m : System) (newState : State) (j : Nat) : Prop :=
  ∃ stage, AtStage config stop m j stage ∧ validTransition newState stage.next = true ∧
    Performable m.shared.driverLines stage.pending

/-- No step of the run installs a state with which another invocation would go on. -/
def NoneOvertakes (config : Configuration) (s₀ : System) (t : Trace) (s : System) : Prop :=
  ∀ t₁ m e m' t₂ newState, Moment (machine config) s₀ t s t₁ m e m' t₂ →
    moved e.call = some newState → ∀ j, j ≠ e.tid → ¬ Overtakes config m newState j

/-! ## 2. The invariant -/

/-- An invocation that could go on from the guard's value installed that value, last of all. -/
def Owned (config : Configuration) (kinds : List Procedure) (t : Trace) (s : System) : Prop :=
  ∀ j stage, kinds[j]? = some stage.procedure → AtStage config stop s j stage →
    validTransition s.shared.state.state stage.next = true →
    Performable s.shared.driverLines stage.pending →
    (installs t).getLast? = some (j, s.shared.state.state)

/-- Driver lines that allow some actions after a step did so before it. -/
theorem Performable.before {actions : List Action} (hs : (machine config).StepTo s e s')
    (h : Performable s'.shared.driverLines actions) : Performable s.shared.driverLines actions := by
  obtain ⟨hlen, hpo⟩ := lines_step hs
  intro driverId value hm
  obtain ⟨hp, hlt⟩ := h driverId value hm
  refine ⟨?_, hlen ▸ hlt⟩
  cases hp₀ : s.shared.driverLines.poisoned with
  | false => rfl
  | true => rw [hpo hp₀] at hp; cases hp

theorem Performable.cons {lines : Locked (List Bool)} {action : Action} {rest : List Action}
    (h : Performable lines [action]) (h' : Performable lines rest) :
    Performable lines (action :: rest) := by
  intro driverId value hm
  rw [mem_actuations] at hm
  rcases List.mem_cons.mp hm with heq | hm
  · exact h driverId value (by rw [mem_actuations, heq]; exact List.mem_singleton_self _)
  · exact h' driverId value (mem_actuations.mpr hm)

/-- The step of an invocation keeps it the owner of what it could leave. -/
theorem Owned.self (hk : kinds[e.tid]? = some stage.procedure)
    (hrun : Run (machine config) (invocations config kinds shared) t m)
    (hs : (machine config).StepTo m e m') (ho : Owned config kinds t m)
    (hm : moved e.call = none) (hat : AtStage config stop m' e.tid stage)
    (hv : validTransition m'.shared.state.state stage.next = true)
    (hp : Performable m'.shared.driverLines stage.pending) :
    (installs t).getLast? = some (e.tid, m'.shared.state.state) := by
  obtain ⟨kind, hk', hcases⟩ := invocations_step hrun hs
  obtain rfl : stage.procedure = kind := Option.some.inj (hk.symm.trans hk')
  rcases hcases with ⟨-, -, hentry⟩ | ⟨stage₀, hkind, hat₀⟩
  · rcases hentry with ⟨hm', -⟩ | ⟨-, q, hq, hf⟩
    · rw [hm'] at hm; cases hm
    · exact absurd hf (hat.not_finished hq)
  · obtain ⟨a, env, hcall, hexec, hnext⟩ := hat₀.step_stop hs rfl
    rcases hnext with ⟨b, stage₁, rfl, hb, hafter, hat₁⟩ | ⟨q, hq, hf⟩
    · have hproc : stage₁.procedure = stage.procedure :=
        (Stage.procedure_after hafter).trans hkind
      obtain rfl := hat₁.unique hat hproc
      rw [hcall] at hm
      have hstate := state_of_not_moved hexec hm
      obtain ⟨-, hn, hpend⟩ := Stage.after_quiet hafter hb hm
      rw [hstate] at hv ⊢
      refine ho e.tid stage₀ (hkind.symm ▸ hk) hat₀ (hn ▸ hv) ?_
      have hp₁ := hp.before hs
      rcases hpend with hpend | ⟨action, hop, hpend⟩
      · rwa [hpend]
      · rw [hpend]
        exact (performable_of_succeeds hop hexec hb).cons hp₁
    · exact absurd hf (hat.not_finished hq)

/-- **The invariant step.**  A step that is not the installation of a state with which another
invocation would go on keeps every invocation the owner of what it could leave. -/
theorem Owned.step (hrun : Run (machine config) (invocations config kinds shared) t m)
    (hs : (machine config).StepTo m e m') (ho : Owned config kinds t m)
    (hcond : ∀ newState, moved e.call = some newState →
      ∀ j, j ≠ e.tid → ¬ Overtakes config m newState j) :
    Owned config kinds (t ++ [e]) m' := by
  intro j stage hk hat hv hp
  obtain ⟨env, hexec⟩ := StepTo_exec hs
  have hlt : j < m.threads.length := by
    rw [← (((noFork_invocations config kinds shared).run hrun).1.run (Run.single hs)).2]
    exact (List.getElem?_eq_some_iff.mp hat).1
  have hbefore : j ≠ e.tid → AtStage config stop m j stage := by
    intro hj
    rw [AtStage, ← hs.other hj hlt]
    exact hat
  cases hm : moved e.call with
  | none =>
    rw [installs_concat_none t hm]
    by_cases hj : j = e.tid
    · subst hj
      exact Owned.self hk hrun hs ho hm hat hv hp
    · rw [state_of_not_moved hexec hm] at hv ⊢
      exact ho j stage hk (hbefore hj) hv (hp.before hs)
  | some newState =>
    obtain ⟨-, -, -, hstate⟩ := moved_of_exec hexec hm
    rw [installs_concat_some t hm, hstate, List.getLast?_concat]
    by_cases hj : j = e.tid
    · rw [hj]
    · rw [hstate] at hv
      exact absurd ⟨stage, hbefore hj, hv, hp.before hs⟩ (hcond newState hm j hj)

/-- Nobody has a stage before the first step. -/
theorem Owned.init : Owned config kinds [] (invocations config kinds shared) := by
  intro j stage hk hat
  obtain ⟨hm, -⟩ := invocations_atStage Run.refl hk hat
  cases stage <;> cases hm

/-! ## 3. Ownership, exactly -/

/-- Where no step installs a state for others, procedures own their phases. -/
theorem ownsPhases_of_noneOvertakes
    (hcond : NoneOvertakes config (invocations config kinds shared) t s) :
    OwnsPhases config (invocations config kinds shared) t s := by
  rintro t₁ m e m' t₂ hmoment ⟨e₀, he₀, htid, hm₀⟩ hm
  have ho : Owned config kinds t₁ m :=
    hmoment.along Owned.init fun a p e p' b hd ho =>
      Owned.step hd.before hd.step ho fun newState hn j hj => hcond a p e p' b newState hd hn j hj
  have hrun := hmoment.before
  have hs := hmoment.step
  obtain ⟨newState, hnew⟩ := Option.ne_none_iff_exists'.mp hm
  obtain ⟨env, hexec⟩ := StepTo_exec hs
  obtain ⟨kind, hk, hcases⟩ := invocations_step hrun hs
  rcases hcases with ⟨hnil, -⟩ | ⟨stage, rfl, hat⟩
  · -- an invocation that has made no call has made no transition
    have : e₀.call ∈ history e.tid t₁ := mem_history.mpr ⟨e₀, he₀, htid, rfl⟩
    rw [hnil] at this
    cases this
  · obtain ⟨a, env', hcall, hexec', -⟩ := hat.step_stop hs rfl
    rw [hcall] at hnew
    obtain ⟨rfl, hmove⟩ := Stage.moved_next hnew
    obtain ⟨-, -, hv, -⟩ := moved_of_exec hexec' hnew
    refine ho e.tid stage hk hat hv ?_
    have hnone : stage.pending = [] := Stage.pending_of_moveTo hmove
    rw [hnone]
    nofun

/-- **After a step that installs a state for another invocation, that invocation can leave it.** -/
theorem not_ownsPhases_of_overtakes
    (hrun : Run (machine config) (invocations config kinds shared) t m)
    (hs : (machine config).StepTo m e m') {newState : State} (hm : moved e.call = some newState)
    {j : Nat} (hj : j ≠ e.tid) (ho : Overtakes config m newState j) :
    ∃ t' s, Run (machine config) m' t' s ∧
      ¬ OwnsPhases config (invocations config kinds shared) (t ++ e :: t') s := by
  obtain ⟨stage, hat, hv, hp⟩ := ho
  obtain ⟨env, hexec⟩ := StepTo_exec hs
  obtain ⟨hop, hpo, -, hstate⟩ := moved_of_exec hexec hm
  have hlines : m'.shared.driverLines = m.shared.driverLines := by
    have := exec_driverLines (o := e.call.op) (fun d v h => by rw [hop] at h; cases h) env m.shared
    rwa [hexec] at this
  have hat' : AtStage config stop m' j stage := by
    rw [AtStage, hs.other hj (List.getElem?_eq_some_iff.mp hat).1]
    exact hat
  -- `j` has made a transition already
  obtain ⟨e₀, he₀, htid, hm₀⟩ : ∃ e₀ ∈ t, e₀.tid = j ∧ moved e₀.call ≠ none := by
    obtain ⟨stage', -, -, hmoves, -⟩ := invocations_running hrun hat
    obtain ⟨X, hX⟩ : ∃ X, X ∈ (history j t).filterMap moved := by
      rw [hmoves]
      cases stage' <;> exact ⟨_, List.mem_cons_self⟩
    obtain ⟨c, hc, hcX⟩ := List.mem_filterMap.mp hX
    obtain ⟨e₀, he₀, htid, rfl⟩ := mem_history.mp hc
    exact ⟨e₀, he₀, htid, by rw [hcX]; exact Option.some_ne_none X⟩
  -- and is let run up to the next one
  obtain ⟨t', m'', stage', halone, hat'', hcall⟩ := hat'.reach_move (hlines ▸ hp)
  have hguard : m''.shared.state = { m.shared.state with state := newState } :=
    halone.state.trans hstate
  obtain ⟨b, shared', hb, hmb, hexecb⟩ : ∃ (b : (stage'.call config).Ans) (shared' : Shared),
      Op.succeeds _ b ∧ moved ⟨stage'.call config, some b⟩ ≠ none ∧
      exec (stage'.call config) Env.fine m''.shared = (some b, shared') := by
    have hvalid := Guard.moveTo_of_valid (g := m''.shared.state)
      (by rw [hguard]; exact hpo) (by rw [hguard]; exact hv)
    rw [hcall]
    exact ⟨.ok (), _, rfl, Option.some_ne_none _, by rw [exec, hvalid]⟩
  obtain ⟨s, hstep, -⟩ := hat''.advance hb hexecb
  refine ⟨_, s, halone.run.tail hstep, fun howns => hj ?_⟩
  have hbefore := hrun.trans (Run.head hs halone.run)
  have := howns (t ++ e :: t') m'' _ s [] ⟨by simp, hbefore, hstep, Run.refl⟩
    ⟨e₀, List.mem_append_left _ he₀, htid, hm₀⟩ hmb
  rw [List.append_cons, installs_append, halone.installs, List.append_nil,
    installs_concat_some t hm, List.getLast?_concat] at this
  exact (Prod.mk.inj (Option.some.inj this)).1.symm

/-- **Exactly when procedures own their phases.**  In every run none of whose steps installs a
state for another invocation they do; and after any step that does, the run can be continued to
one in which they do not. -/
theorem phases_owned_unless_overtaken (config : Configuration) (kinds : List Procedure)
    (shared : Shared) :
    (∀ t s, Run (machine config) (invocations config kinds shared) t s →
      NoneOvertakes config (invocations config kinds shared) t s →
      OwnsPhases config (invocations config kinds shared) t s) ∧
    ∀ t m e m' newState j, Run (machine config) (invocations config kinds shared) t m →
      (machine config).StepTo m e m' → moved e.call = some newState → j ≠ e.tid →
      Overtakes config m newState j →
      ∃ t' s, Run (machine config) m' t' s ∧
        ¬ OwnsPhases config (invocations config kinds shared) (t ++ e :: t') s := by
  constructor
  · intro t s _ hcond
    exact ownsPhases_of_noneOvertakes hcond
  · intro t m e m' newState j hrun hs hm hj ho
    exact not_ownsPhases_of_overtakes hrun hs hm hj ho

/-- An ignition is about to leave its wait when a stop comes and goes.  Neither `EStopping` nor `Standby`
lets it go on, and it is refused; every transition that is made leaves a state of its own procedure. -/
theorem overtaken_ignition_refused :
    ∃ t s, Run (machine (Configuration.oneDriver [] []))
        (invocations (Configuration.oneDriver [] []) [.ignition, .emergencyStop] (Shared.new [false]))
        t s ∧
      t.map (fun e => (e.tid, moved e.call)) = [(0, some .preIgnite), (0, none),
        (1, some .eStopping), (1, some .standby), (0, none)] ∧
      OwnsPhases (Configuration.oneDriver [] [])
        (invocations (Configuration.oneDriver [] []) [.ignition, .emergencyStop] (Shared.new [false]))
        t s := by
  let M := machine (Configuration.oneDriver [] [])
  let s₀ := invocations (Configuration.oneDriver [] []) [.ignition, .emergencyStop]
    (Shared.new [false])
  let t := (M.runSchedule ([0, 0, 1, 1, 0].map fun i => (i, Env.fine)) s₀).1
  let s := (M.runSchedule ([0, 0, 1, 1, 0].map fun i => (i, Env.fine)) s₀).2
  have hrun : Run M s₀ t s := run_runSchedule _ s₀
  have hmoves : t.map (fun e => (e.tid, moved e.call)) = [(0, some .preIgnite), (0, none),
      (1, some .eStopping), (1, some .standby), (0, none)] := by decide +kernel
  have hcond : NoneOvertakes (Configuration.oneDriver [] []) s₀ t s := by
    rintro t₁ m e m' t₂ newState hmoment hmoved j hj ⟨stage, hat, hvalid, -⟩
    have hevent := congrArg (·[t₁.length]?) hmoves
    simp only [List.getElem?_map, hmoment.getElem?, Option.map_some, hmoved] at hevent
    have hlt : t₁.length < 5 := (List.getElem?_eq_some_iff.mp hevent.symm).1
    have hstage : ∀ {i : Nat} {p : Prog Op Op.Ans Unit} {o : Op}, s₀.threads[i]? = some p → j = i →
        (p.replay (history i (t.take t₁.length))).bind Prog.pending = some o →
        stage.call (Configuration.oneDriver [] []) = o := by
      rintro i p o hp rfl ho
      exact Option.some.inj (hat.pending.symm.trans (hmoment.pending hp ho))
    obtain ⟨stage', hkind, -⟩ := invocations_running hmoment.before hat
    have hthread : j < 2 := (List.getElem?_eq_some_iff.mp hkind).1
    -- an ignition that is about to move to `Ignite` does so from `PreIgnite` only
    have hrefused : stage.call (Configuration.oneDriver [] []) = .moveTo .ignite →
        newState = .preIgnite := by
      intro hcall
      rw [← Stage.next_of_call hcall] at hvalid
      cases newState <;> first | rfl | cases hvalid
    interval_cases hk : t₁.length
    · obtain ⟨htid, rfl⟩ : e.tid = 0 ∧ newState = .preIgnite := by simpa using hevent
      have hcall := hstage (i := 1) (p := (Procedure.emergencyStop.code _).discard)
        (o := .moveTo .eStopping) rfl (by omega) (by decide +kernel)
      exact stage.call_ne_entry _ .emergencyStop hcall
    · simp at hevent
    · obtain ⟨htid, rfl⟩ : e.tid = 1 ∧ newState = .eStopping := by simpa using hevent
      have hcall := hstage (i := 0) (p := (Procedure.ignition.code _).discard)
        (o := .moveTo .ignite) rfl (by omega) (by decide +kernel)
      cases hrefused hcall
    · obtain ⟨htid, rfl⟩ : e.tid = 1 ∧ newState = .standby := by simpa using hevent
      have hcall := hstage (i := 0) (p := (Procedure.ignition.code _).discard)
        (o := .moveTo .ignite) rfl (by omega) (by decide +kernel)
      cases hrefused hcall
    · simp at hevent
  exact ⟨t, s, hrun, hmoves,
    (phases_owned_unless_overtaken (.oneDriver [] []) [.ignition, .emergencyStop]
      (Shared.new [false])).1 t s hrun hcond⟩

/-- An ignition waits, a stop comes and goes, a second ignition starts, and the first one goes
on to `Ignite` from the second one's `PreIgnite`. -/
theorem stale_ignition_goes_on :
    ∃ t s, Run (machine (Configuration.oneDriver [] []))
        (invocations (Configuration.oneDriver [] []) [.ignition, .emergencyStop, .ignition]
          (Shared.new [false])) t s ∧
      ¬ OwnsPhases (Configuration.oneDriver [] [])
        (invocations (Configuration.oneDriver [] []) [.ignition, .emergencyStop, .ignition]
          (Shared.new [false])) t s := by
  let M := machine (Configuration.oneDriver [] [])
  let s₀ := invocations (Configuration.oneDriver [] []) [.ignition, .emergencyStop, .ignition]
    (Shared.new [false])
  let before := [0, 1, 1, 2, 0].map fun i => (i, Env.fine)
  let m := (M.runSchedule before s₀).2
  have hrun : Run M s₀ (M.runSchedule before s₀).1 m := run_runSchedule before s₀
  obtain ⟨m', hs⟩ : ∃ m', M.StepTo m ⟨0, ⟨.moveTo .ignite, some (.ok ())⟩⟩ m' :=
    ⟨_, 0, Env.fine, rfl⟩
  refine ⟨_, m', hrun.tail hs, fun howns => ?_⟩
  have hlast := howns _ m _ m' [] ⟨rfl, hrun, hs, Run.refl⟩ ⟨_, List.mem_cons_self, rfl, nofun⟩ nofun
  exact absurd hlast (by decide)

end Slonk
