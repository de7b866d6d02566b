/-
# Ignitions exclude one another

Any number of `Ignition` and `Actuate` commands, handled at once, with GPIO writes that fail as
they like.  As long as nobody stops or quits, the guard serialises the ignitions: `Standby` is
the only state an ignition can enter from, the one that did takes it away, and every later
transition of a procedure starts from the state that the transition before it installed.

The invariant is `Exclusive`: the ignition that is past its first transition installed the
guard's value, last of all.  When there is none, the guard is in `Standby`, or in `Ignite`
because the last ignition gave up in the middle of its sequence (`LeftBehind`); then no ignition
can enter again.
-/
import Slonk.Commands

namespace Slonk

open Concurrency

variable {config : Configuration} {cmds : List Command} {lines : List Bool}
  {m m' s s' : System} {e : Event Op.Ans} {i j : Nat} {t : Trace} {stage stage' : Stage}

/-! ## 1. The property -/

/-- The ignition of command `i` is past its first successful `move_to` and has not returned: it
is at this stage. -/
structure InIgnition (config : Configuration) (cmds : List Command) (s : System) (i : Nat)
    (stage : Stage) : Prop where
  command : cmds[i]? = some .ignition
  kind : stage.procedure = .ignition
  here : AtStage config (afterExecute .ignition) s i stage

/-- The last transition was some ignition's move to `Ignite`, and a write of that ignition has
failed. -/
def LeftBehind (cmds : List Command) (t : Trace) : Prop :=
  ∃ i, cmds[i]? = some .ignition ∧ (installs t).getLast? = some (i, .ignite) ∧
    ∃ e ∈ t, e.tid = i ∧ ∃ driverId value err, e.call = ⟨.write driverId value, some (.error err)⟩

/-- Between two writes of one ignition there is one of another. -/
def WritesInterleave (cmds : List Command) (t : Trace) : Prop :=
  ∃ t₁ a t₂ b t₃ c t₄, t = t₁ ++ a :: (t₂ ++ b :: (t₃ ++ c :: t₄)) ∧
    cmds[a.tid]? = some .ignition ∧ cmds[b.tid]? = some .ignition ∧ b.tid ≠ a.tid ∧
    c.tid = a.tid ∧ wrote a.call ≠ none ∧ wrote b.call ≠ none ∧ wrote c.call ≠ none

/-- **Ignitions exclude one another** in the run `t` from `s₀` to `s`. -/
structure IgnitionsExclude (config : Configuration) (cmds : List Command) (s₀ : System)
    (t : Trace) (s : System) : Prop where
  /-- at most one of them is on its way -/
  one : ∀ i j stage stage', InIgnition config cmds s i stage →
    InIgnition config cmds s j stage' → i = j
  /-- the guard holds its phase -/
  phase : ∀ i stage, InIgnition config cmds s i stage → s.shared.state.state = stage.phase
  /-- and `Standby` or a left behind `Ignite` when there is none -/
  vacant : (∀ i stage, ¬ InIgnition config cmds s i stage) →
    s.shared.state.state = .standby ∨ (s.shared.state.state = .ignite ∧ LeftBehind cmds t)
  /-- their writes do not interleave -/
  apart : ¬ WritesInterleave cmds t
  /-- the writes of each are a prefix of the sequence -/
  inOrder : ∀ i, cmds[i]? = some .ignition →
    (history i t).filterMap wrote <+: actuations config.ignitionSequence
  /-- one that is refused changes neither the guard nor a driver line -/
  refused : ∀ i err, cmds[i]? = some .ignition →
    ⟨.moveTo .preIgnite, some (.error err)⟩ ∈ history i t →
    ∀ t₁ m e m' t₂, Moment (machine config) s₀ t s t₁ m e m' t₂ → e.tid = i →
      m'.shared.state = m.shared.state ∧ m'.shared.driverLines = m.shared.driverLines

/-! ## 2. One thread -/

/-- No stage logs. -/
theorem Stage.call_not_logs (config : Configuration) (stage : Stage) :
    ¬ (stage.call config).Logs := by
  have haction : ∀ action : Action, ¬ action.op.Logs := by
    intro action
    cases action <;> exact id
  cases stage with
  | igniting rest =>
    cases rest with
    | nil => exact id
    | cons action rest => exact haction action
  | stopping rest =>
    cases rest with
    | nil => exact id
    | cons action rest => exact haction action
  | _ => exact id

/-- What follows `ignition` cannot be taken for a stage of it. -/
theorem afterExecute_ne_stage (stage : Stage)
    (k : (stage.call config).Ans → Prog Op Op.Ans Unit) :
    afterExecute .ignition (.ok ()) ≠ .op (stage.call config) k := by
  intro h
  have hop : Op.now = stage.call config := by injection h
  exact stage.call_not_logs config (hop ▸ trivial)

theorem InIgnition.unique (h : InIgnition config cmds s i stage)
    (h' : InIgnition config cmds s i stage') : stage = stage' :=
  Stage.code_bind_injective afterExecute_ne_stage (h.kind.trans h'.kind.symm)
    (Option.some.inj (h.here.symm.trans h'.here))

/-- A thread that only logs, or waits to enter, is at no stage. -/
theorem not_atStage_of_logs {q : Prog Op Op.Ans Unit} (hq : s.threads[i]? = some q)
    (hl : q.All Op.Logs) : ¬ AtStage config (afterExecute .ignition) s i stage := by
  intro hat
  obtain ⟨k, hcode, -⟩ := stage.code_eq config
  unfold AtStage at hat
  rw [hcode, hq] at hat
  obtain rfl := Option.some.inj hat
  exact stage.call_not_logs config hl.1

theorem not_atStage_of_waiting {p : Prog Op Op.Ans (Except ExecutionError Unit)}
    (hq : s.threads[i]? = some (p.bind (afterPrologue config .ignition)))
    (hl : p.All Op.Logs) : ¬ AtStage config (afterExecute .ignition) s i stage := by
  intro hat
  obtain ⟨k, hcode, -⟩ := stage.code_eq config
  unfold AtStage at hat
  rw [hcode, hq] at hat
  have hp := Option.some.inj hat
  match p with
  | .ret (.error e) => cases hp
  | .panic => cases hp
  | .op o k' =>
    injection hp with ho
    subst ho
    exact stage.call_not_logs config hl.1
  | .ret (.ok ()) =>
    obtain ⟨k', hcode', -⟩ := Procedure.ignition.code_eq config
    have hpre : afterPrologue config .ignition (.ok ())
        = (Procedure.ignition.code config).bind (afterExecute .ignition) := rfl
    rw [Prog.bind_ret, hpre, hcode'] at hp
    injection hp with ho
    exact stage.call_ne_entry config .ignition ho.symm

/-- The thread of an ignition command has a place. -/
theorem commands_place {shared : Shared}
    (hrun : Run (machine config) (commands config cmds shared) t s)
    (hi : cmds[i]? = some .ignition) :
    ∃ q, s.threads[i]? = some q ∧
      Prog.Steps ((prologue .ignition).run.bind (afterPrologue config .ignition)) (history i t) q ∧
      IgnitionPlace config (history i t) q := by
  obtain ⟨q, hq, hs⟩ := hrun.steps (commands_thread hi)
  exact ⟨q, hq, hs, IgnitionPlace.of_steps hs⟩

/-- An ignition on its way has made its stage's transitions, and has the stage's writes left. -/
theorem InIgnition.record {shared : Shared}
    (hrun : Run (machine config) (commands config cmds shared) t s)
    (h : InIgnition config cmds s i stage) :
    (history i t).filterMap moved = stage.moves ∧
      (history i t).filterMap wrote ++ actuations (stage.rest config)
        = actuations config.ignitionSequence := by
  obtain ⟨q, hq, -, hplace⟩ := commands_place hrun h.command
  cases hplace with
  | waiting p hl => exact absurd h.here (not_atStage_of_waiting hq hl)
  | ended hl => exact absurd h.here (not_atStage_of_logs hq hl)
  | running stage' hk hm hw =>
    obtain rfl := h.unique ⟨h.command, hk, hq⟩
    exact ⟨hm, hw⟩

/-- **The next step of an ignition command**: it logs, it asks to enter `ignition`, or it is on
its way. -/
theorem ignition_step {shared : Shared}
    (hrun : Run (machine config) (commands config cmds shared) t m)
    (hs : (machine config).StepTo m e m') (hi : cmds[e.tid]? = some .ignition) :
    (e.call.op.Logs ∧ (∀ stage, ¬ InIgnition config cmds m' e.tid stage) ∧
        ∀ stage, ¬ InIgnition config cmds m e.tid stage) ∨
      (e.call.op = .moveTo .preIgnite ∧ (∀ stage, ¬ InIgnition config cmds m e.tid stage) ∧
        ((moved e.call = some .preIgnite ∧ InIgnition config cmds m' e.tid .preWait) ∨
          (moved e.call = none ∧ ∀ stage, ¬ InIgnition config cmds m' e.tid stage))) ∨
      ∃ stage, InIgnition config cmds m e.tid stage := by
  obtain ⟨k, hpend, hself⟩ := hs.self
  obtain ⟨q, hq, -, hplace⟩ := commands_place hrun hi
  obtain rfl := Option.some.inj (hq.symm.trans hpend)
  generalize hqe : Prog.op e.call.op k = q at hplace
  cases hplace with
  | running stage hk => exact Or.inr (Or.inr ⟨stage, hi, hk, by rw [AtStage, hpend, hqe]⟩)
  | ended hl =>
    rw [← hqe] at hl
    exact Or.inl ⟨hl.1, fun _ h => not_atStage_of_logs hself (hl.resume _) h.here,
      fun _ h => not_atStage_of_logs hpend hl h.here⟩
  | waiting p hl =>
    have hbefore : ∀ stage, ¬ InIgnition config cmds m e.tid stage :=
      fun _ h => not_atStage_of_waiting (hqe ▸ hpend) hl h.here
    rcases p with (err | u) | _ | ⟨o, k'⟩
    case ret.error => cases hqe
    case panic => cases hqe
    case op =>
      injection hqe with ho hk
      subst ho
      obtain rfl := eq_of_heq hk
      refine Or.inl ⟨hl.1, fun _ h => ?_, hbefore⟩
      rw [Prog.resume_bind] at hself
      exact not_atStage_of_waiting hself (hl.resume _) h.here
    case ret.ok =>
      obtain ⟨k', hcode, herr, hok⟩ := Procedure.ignition.code_eq config
      have hpre : afterPrologue config .ignition (.ok ())
          = (Procedure.ignition.code config).bind (afterExecute .ignition) := rfl
      rw [Prog.bind_ret, hpre, hcode] at hqe
      obtain ⟨tid, ⟨o, a⟩⟩ := e
      injection hqe with ho hk
      obtain rfl : o = .moveTo .preIgnite := ho
      obtain rfl := eq_of_heq hk
      refine Or.inr (Or.inl ⟨rfl, hbefore, ?_⟩)
      rcases a with _ | (err | u)
      case none => exact Or.inr ⟨rfl, fun _ h => h.here.not_finished hself trivial⟩
      case some.error =>
        refine Or.inr ⟨rfl, fun _ h => h.here.not_finished hself ?_⟩
        show ((k' (.error err)).bind _).Finished
        rw [herr]
        trivial
      case some.ok =>
        refine Or.inl ⟨rfl, hi, rfl, ?_⟩
        rw [AtStage, hself]
        exact congrArg (fun p => some (Prog.bind p (afterExecute .ignition))) hok

/-- **How an operation can fail** in a healthy state: the guard refuses a transition, or a pin
refuses a write. -/
theorem exec_failure {n : Nat} {o : Op} {env : Env} {shared shared' : Shared} {a : Option o.Ans}
    (hs : Healthy n shared) (ho : InRange n o) (hexec : exec o env shared = (a, shared'))
    (hfail : ∀ b, a = some b → ¬ Op.succeeds o b) :
    (∃ newState, o = .moveTo newState ∧
        validTransition shared.state.state newState = false) ∨
      ∃ driverId value err, (⟨o, a⟩ : Call Op.Ans) = ⟨.write driverId value, some (.error err)⟩ := by
  obtain ⟨hans, -⟩ := exec_healthy env ho hs
  rw [hexec] at hans
  obtain ⟨b, rfl⟩ := Option.ne_none_iff_exists'.mp hans
  have hb := hfail b rfl
  cases o with
  | moveTo newState =>
    refine Or.inl ⟨newState, rfl, ?_⟩
    by_contra hv
    have hok := Guard.moveTo_of_valid hs.state (Bool.not_eq_false _ ▸ hv)
    have hans' : some (shared.state.moveTo newState).1 = some b := (Prod.mk.inj hexec).1
    rw [hok] at hans'
    exact hb (Option.some.inj hans').symm
  | write driverId value =>
    cases b with
    | ok u => exact absurd rfl hb
    | error err => exact Or.inr ⟨driverId, value, err, rfl⟩
  | _ => exact absurd trivial hb

/-- An ignition in its phase fails only by a write of its sequence. -/
theorem InIgnition.failure {n : Nat} {env : Env} {shared' : Shared}
    (h : InIgnition config cmds m i stage) (hs : Healthy n m.shared)
    (hphase : m.shared.state.state = stage.phase) (hrange : InRange n (stage.call config))
    {a : Option (stage.call config).Ans}
    (hexec : exec (stage.call config) env m.shared = (a, shared'))
    (hfail : ∀ b, a = some b → ¬ Op.succeeds _ b) :
    stage.phase = .ignite ∧ ∃ driverId value err,
      (⟨stage.call config, a⟩ : Call Op.Ans) = ⟨.write driverId value, some (.error err)⟩ := by
  rcases exec_failure hs hrange hexec hfail with ⟨newState, hcall, hv⟩ | ⟨d, v, err, herr⟩
  · rw [hphase, Stage.next_of_call hcall, stage.validTransition_next] at hv
    cases hv
  · refine ⟨?_, d, v, err, herr⟩
    have hcall : stage.call config = .write d v := congrArg Call.op herr
    have hkind := h.kind
    cases stage with
    | igniting rest => rfl
    | stopping rest => cases hkind
    | _ => cases hcall

/-! ## 3. The invariant -/

/-- The ignition that is on its way installed the guard's value, last of all; without one the
guard is in `Standby`, or in an `Ignite` that was left behind. -/
structure Exclusive (config : Configuration) (cmds : List Command) (t : Trace) (s : System) :
    Prop where
  owner : ∀ i stage, InIgnition config cmds s i stage →
    (installs t).getLast? = some (i, stage.phase)
  vacant : (∀ i stage, ¬ InIgnition config cmds s i stage) →
    s.shared.state.state = .standby ∨ (s.shared.state.state = .ignite ∧ LeftBehind cmds t)

theorem Exclusive.one (h : Exclusive config cmds t s) (hi : InIgnition config cmds s i stage)
    (hj : InIgnition config cmds s j stage') : i = j :=
  (Prod.mk.inj (Option.some.inj ((h.owner i stage hi).symm.trans (h.owner j stage' hj)))).1

theorem Exclusive.phase {s₀ : System} (h : Exclusive config cmds t s)
    (hrun : Run (machine config) s₀ t s) (hi : InIgnition config cmds s i stage) :
    s.shared.state.state = stage.phase := by
  rw [(guard_eq hrun).1, h.owner i stage hi]
  rfl

theorem LeftBehind.snoc (h : LeftBehind cmds t) (hm : moved e.call = none) :
    LeftBehind cmds (t ++ [e]) := by
  obtain ⟨i, hi, hlast, e', he', hfail⟩ := h
  refine ⟨i, hi, ?_, e', List.mem_append_left _ he', hfail⟩
  rw [installs_concat_none t hm]
  exact hlast

/-- The ignitions of the other threads are where they were. -/
theorem inIgnition_other {shared : Shared}
    (hrun : Run (machine config) (commands config cmds shared) t m)
    (hs : (machine config).StepTo m e m') (hj : j ≠ e.tid) :
    InIgnition config cmds m' j stage ↔ InIgnition config cmds m j stage := by
  have hthread : ∀ cmd, cmds[j]? = some cmd → m'.threads[j]? = m.threads[j]? := by
    intro cmd hc
    obtain ⟨q, hq, -⟩ := hrun.steps (commands_thread hc)
    exact hs.other hj (List.getElem?_eq_some_iff.mp hq).1
  constructor
  · rintro ⟨hc, hk, hat⟩
    exact ⟨hc, hk, by rw [AtStage, ← hthread _ hc]; exact hat⟩
  · rintro ⟨hc, hk, hat⟩
    exact ⟨hc, hk, by rw [AtStage, hthread _ hc]; exact hat⟩

/-- A step that neither moves the guard nor concerns an ignition on its way changes nothing. -/
theorem Exclusive.idle {shared : Shared} (h : Exclusive config cmds t m)
    (hrun : Run (machine config) (commands config cmds shared) t m)
    (hs : (machine config).StepTo m e m') (hm : moved e.call = none)
    (hafter : ∀ stage, ¬ InIgnition config cmds m' e.tid stage)
    (hbefore : ∀ stage, ¬ InIgnition config cmds m e.tid stage) :
    Exclusive config cmds (t ++ [e]) m' := by
  obtain ⟨env, hexec⟩ := StepTo_exec hs
  have hne : ∀ {j stage}, InIgnition config cmds m' j stage → j ≠ e.tid := by
    rintro j stage hj rfl
    exact hafter stage hj
  constructor
  · intro j stage hj
    rw [installs_concat_none t hm]
    exact h.owner j stage ((inIgnition_other hrun hs (hne hj)).mp hj)
  · intro hnone
    rw [state_of_not_moved hexec hm]
    refine (h.vacant fun j stage hj => ?_).imp_right fun h => ⟨h.1, h.2.snoc hm⟩
    by_cases hje : j = e.tid
    · subst hje
      exact hbefore stage hj
    · exact hnone j stage ((inIgnition_other hrun hs hje).mpr hj)

/-- An ignition enters: the guard was in `Standby`, so no other one was on its way. -/
theorem Exclusive.enter {shared : Shared} (h : Exclusive config cmds t m)
    (hrun : Run (machine config) (commands config cmds shared) t m)
    (hs : (machine config).StepTo m e m') (hm : moved e.call = some .preIgnite)
    (hin : InIgnition config cmds m' e.tid .preWait) :
    Exclusive config cmds (t ++ [e]) m' := by
  obtain ⟨env, hexec⟩ := StepTo_exec hs
  obtain ⟨-, -, hv, -⟩ := moved_of_exec hexec hm
  have hnobody : ∀ j stage, ¬ InIgnition config cmds m j stage := by
    intro j stage hj
    rw [h.phase hrun hj] at hv
    cases stage <;> cases hv
  have hself : ∀ {j stage}, InIgnition config cmds m' j stage → j = e.tid := by
    intro j stage hj
    by_contra hne
    exact hnobody j stage ((inIgnition_other hrun hs hne).mp hj)
  constructor
  · intro j stage hj
    obtain rfl := hself hj
    rw [hj.unique hin, installs_concat_some t hm, List.getLast?_concat]
    rfl
  · intro hnone
    exact absurd hin (hnone _ _)

/-- An ignition on its way takes a step. -/
theorem Exclusive.advance {shared : Shared} {n : Nat} (h : Exclusive config cmds t m)
    (hrun : Run (machine config) (commands config cmds shared) t m)
    (hs : (machine config).StepTo m e m') (hh : Healthy n m.shared)
    (hrange : InRange n e.call.op) (hin : InIgnition config cmds m e.tid stage) :
    Exclusive config cmds (t ++ [e]) m' := by
  have hphase := h.phase hrun hin
  have hself : ∀ {j stage'}, InIgnition config cmds m' j stage' → j = e.tid := by
    intro j stage' hj
    by_contra hne
    exact hne (h.one ((inIgnition_other hrun hs hne).mp hj) hin)
  obtain ⟨a, env, hcall, hexec, hnext⟩ := hin.here.step hs rfl
  have hop : e.call.op = stage.call config := by rw [hcall]
  rcases hnext with ⟨b, rfl, hb, hnext⟩ | ⟨hfail, q, hq, hfin⟩
  · cases hafter : stage.after config with
    | some stage₁ =>
      rw [hafter] at hnext
      have hin₁ : InIgnition config cmds m' e.tid stage₁ :=
        ⟨hin.command, (Stage.procedure_after hafter).trans hin.kind, hnext⟩
      refine ⟨fun j stage' hj => ?_, fun hnone => absurd hin₁ (hnone _ _)⟩
      obtain rfl := hself hj
      rw [hj.unique hin₁]
      cases hm : moved e.call with
      | none =>
        rw [installs_concat_none t hm, h.owner _ _ hin]
        rw [hcall] at hm
        rw [(Stage.after_quiet hafter hb hm).1]
      | some newState =>
        rw [installs_concat_some t hm, List.getLast?_concat]
        rw [hcall] at hm
        obtain ⟨rfl, hmove⟩ := Stage.moved_next hm
        rw [Stage.after_moved hafter hmove]
    | none =>
      -- the ignition is done, and has moved the guard to `Standby`
      rw [hafter] at hnext
      have hout : ∀ stage', ¬ InIgnition config cmds m' e.tid stage' := fun stage' hj =>
        not_atStage_of_logs hnext (afterExecute_all (fun _ => id) _ _) hj.here
      refine ⟨fun j stage' hj => absurd (hself hj ▸ hj) (hout stage'), fun _ => Or.inl ?_⟩
      have hmoved : moved e.call = some .standby := by
        rw [hcall]
        exact moved_of_succeeds (Stage.call_of_after_none hafter) hb
      obtain ⟨env', hexec'⟩ := StepTo_exec hs
      rw [(moved_of_exec hexec' hmoved).2.2.2]
  · -- a write has failed, and the guard is left behind
    obtain ⟨hign, d, v, err, herr⟩ :=
      hin.failure hh hphase (hop ▸ hrange) hexec hfail
    have hm : moved e.call = none := by rw [hcall, herr]; rfl
    have hout : ∀ stage', ¬ InIgnition config cmds m' e.tid stage' := by
      intro stage' hj
      refine hj.here.not_finished hq ?_
      rcases hfin with rfl | ⟨err', rfl⟩
      · trivial
      · trivial
    refine ⟨fun j stage' hj => absurd (hself hj ▸ hj) (hout stage'), fun _ => Or.inr ⟨?_, ?_⟩⟩
    · rw [state_of_not_moved (StepTo_exec hs).choose_spec hm, hphase, hign]
    · refine ⟨e.tid, hin.command, ?_, e, by simp, rfl, d, v, err, hcall.trans herr⟩
      rw [installs_concat_none t hm, h.owner _ _ hin, hign]

/-! ## 4. Along a run -/

section Runs

variable {shared : Shared} {n : Nat}
  (hc : ∀ cmd ∈ cmds, (∃ driverId value, cmd = .actuate driverId value) ∨ cmd = .ignition)
  (hr : ∀ cmd ∈ cmds, CommandInRange config n cmd)
  (h₀ : Healthy n shared)
include hc hr h₀

/-- **Every step keeps the ignitions exclusive.** -/
theorem Exclusive.step (hrun : Run (machine config) (commands config cmds shared) t m)
    (hs : (machine config).StepTo m e m') (h : Exclusive config cmds t m) :
    Exclusive config cmds (t ++ [e]) m' := by
  have hh : Healthy n m.shared := commands_healthy hr h₀ hrun
  obtain ⟨k, hk, -⟩ := hs.self
  obtain ⟨cmd, hi⟩ := commands_cmd hr hrun hk
  have hmem := List.mem_of_getElem? hi
  rcases hc cmd hmem with ⟨driverId, value, rfl⟩ | rfl
  · -- an `Actuate` moves nothing
    have hno : ∀ {m : System} stage, ¬ InIgnition config cmds m e.tid stage := by
      intro m stage hin
      have := hin.command
      rw [hi] at this
      cases this
    have hop : ∀ X, e.call.op ≠ .moveTo X := by
      refine commands_next (P := fun o => ∀ X, o ≠ .moveTo X) ?_ hrun hs hi
      refine handleCommand_all (fun o ho X h => by rw [h] at ho; exact ho) ?_
      simp only [execute]
      split
      · trivial
      · exact ⟨by rintro _ ⟨⟩, fun a => by cases a <;> trivial⟩
    have hm : moved e.call = none := by
      obtain ⟨tid, ⟨o, a⟩⟩ := e
      cases o with
      | moveTo X => exact absurd rfl (hop X)
      | _ => rfl
    exact h.idle hrun hs hm hno hno
  · rcases ignition_step hrun hs hi with ⟨hl, hafter, hbefore⟩ | ⟨-, hbefore, henter⟩ | ⟨stage, hin⟩
    · exact h.idle hrun hs (moved_of_logs hl) hafter hbefore
    · rcases henter with ⟨hm, hin⟩ | ⟨hm, hafter⟩
      · exact h.enter hrun hs hm hin
      · exact h.idle hrun hs hm hafter hbefore
    · have hrange := commands_next (handleCommand_inRange (hr _ hmem)) hrun hs hi
      exact h.advance hrun hs hh hrange.1 hin

/-- **The ignitions of every reachable state are exclusive.** -/
theorem Exclusive.run (hstart : shared.state.state = .standby)
    (hrun : Run (machine config) (commands config cmds shared) t s) :
    Exclusive config cmds t s := by
  induction hrun with
  | refl =>
    refine ⟨fun i stage hin => ?_, fun _ => Or.inl hstart⟩
    have hm := (hin.record Run.refl).1
    cases stage <;> cases hm
  | tail hrun hs ih => exact ih.step hc hr h₀ hrun hs

end Runs

/-! ## 5. The writes -/

/-- An ignition that writes is on its way. -/
theorem inIgnition_of_wrote {shared : Shared}
    (hrun : Run (machine config) (commands config cmds shared) t m)
    (hs : (machine config).StepTo m e m') (hi : cmds[e.tid]? = some .ignition)
    (hw : wrote e.call ≠ none) : ∃ stage, InIgnition config cmds m e.tid stage := by
  rcases ignition_step hrun hs hi with ⟨hl, -⟩ | ⟨hop, -⟩ | hin
  · exact absurd (wrote_of_logs hl) hw
  · refine absurd ?_ hw
    obtain ⟨tid, ⟨o, a⟩⟩ := e
    obtain rfl : o = .moveTo .preIgnite := hop
    rfl
  · exact hin

/-- **Between two writes of an ignition it is on its way**, so no other one is. -/
theorem not_writesInterleave {shared : Shared}
    (hex : ∀ t s, Run (machine config) (commands config cmds shared) t s →
      Exclusive config cmds t s)
    (hrun : Run (machine config) (commands config cmds shared) t s) :
    ¬ WritesInterleave cmds t := by
  rintro ⟨t₁, a, t₂, b, t₃, c, t₄, rfl, hca, hcb, hba, hac, hwa, hwb, hwc⟩
  have hcons : t₁ ++ a :: (t₂ ++ b :: (t₃ ++ c :: t₄)) = (t₁ ++ a :: t₂) ++ b :: (t₃ ++ c :: t₄) := by
    simp
  rw [hcons] at hrun
  obtain ⟨m, m', hd⟩ := hrun.moment
  obtain ⟨stage', hin'⟩ := inIgnition_of_wrote hd.before hd.step hcb hwb
  obtain ⟨q, hq, -, hplace⟩ := commands_place hd.before hca
  have hcall : a.call ∈ history a.tid (t₁ ++ a :: t₂) :=
    mem_history.mpr ⟨a, by simp, rfl, rfl⟩
  cases hplace with
  | waiting p hl hm hw =>
    obtain ⟨w, hw'⟩ := Option.ne_none_iff_exists'.mp hwa
    have hmem := List.mem_filterMap.mpr ⟨a.call, hcall, hw'⟩
    rw [hw] at hmem
    cases hmem
  | ended hl =>
    -- it would have returned before its last write
    obtain ⟨q', -, hsteps⟩ := (Run.head hd.step hd.after).steps hq
    have hlogs := (hsteps.all hl).1 c.call (mem_history.mpr ⟨c, by simp, hac, rfl⟩)
    exact hwc (wrote_of_logs hlogs)
  | running stage hk =>
    exact hba ((hex _ _ hd.before).one hin' ⟨hca, hk, hq⟩)

/-- The writes of an ignition are a prefix of its sequence. -/
theorem writes_initial {shared : Shared}
    (hrun : Run (machine config) (commands config cmds shared) t s)
    (hi : cmds[i]? = some .ignition) :
    (history i t).filterMap wrote <+: actuations config.ignitionSequence := by
  obtain ⟨q, -, -, hplace⟩ := commands_place hrun hi
  cases hplace with
  | waiting p _ _ hw => rw [hw]; exact List.nil_prefix
  | running stage _ _ hw => exact ⟨_, hw⟩
  | ended _ hw => exact hw

/-- A refused ignition changes neither the guard nor a driver line. -/
theorem refused_frame {shared : Shared} {err : StateError} {t₁ t₂ : Trace}
    (hrun : Run (machine config) (commands config cmds shared) t s)
    (hi : cmds[i]? = some .ignition)
    (href : ⟨.moveTo .preIgnite, some (.error err)⟩ ∈ history i t)
    (hd : Moment (machine config) (commands config cmds shared) t s t₁ m e m' t₂)
    (he : e.tid = i) :
    m'.shared.state = m.shared.state ∧ m'.shared.driverLines = m.shared.driverLines := by
  obtain ⟨q, -, hsteps, -⟩ := commands_place hrun hi
  have hmem : e.call ∈ history i t := mem_history.mpr ⟨e, by rw [hd.split]; simp, he, rfl⟩
  obtain ⟨env, hexec⟩ := StepTo_exec hd.step
  have hshared : m'.shared = (exec e.call.op env m.shared).2 := by rw [hexec]
  rcases refused_calls hsteps href e.call hmem with hl | ⟨err', hcall⟩
  · rw [hshared]
    exact exec_logs hl env m.shared
  · have hm : moved e.call = none := by rw [hcall]; rfl
    refine ⟨state_of_not_moved hexec hm, ?_⟩
    rw [hshared, hcall]
    exact exec_driverLines (by rintro d v ⟨⟩) env m.shared

/-- **Ignitions exclude one another.**  Whatever the interleaving and whichever writes fail, in
every run of `Ignition` and `Actuate` commands from `Standby` with identifiers in range. -/
theorem ignitions_exclude (config : Configuration) (cmds : List Command) (lines : List Bool)
    (hc : ∀ cmd ∈ cmds, (∃ driverId value, cmd = .actuate driverId value) ∨ cmd = .ignition)
    (hr : ∀ cmd ∈ cmds, CommandInRange config lines.length cmd) (t : Trace) (s : System)
    (hrun : Run (machine config) (commands config cmds (Shared.new lines)) t s) :
    IgnitionsExclude config cmds (commands config cmds (Shared.new lines)) t s := by
  have hex : ∀ t s, Run (machine config) (commands config cmds (Shared.new lines)) t s →
      Exclusive config cmds t s :=
    fun t s h => Exclusive.run hc hr (healthy_new lines) rfl h
  exact
    { one := fun i j stage stage' hi hj => (hex t s hrun).one hi hj
      phase := fun i stage hi => (hex t s hrun).phase hrun hi
      vacant := (hex t s hrun).vacant
      apart := not_writesInterleave hex hrun
      inOrder := fun i hi => writes_initial hrun hi
      refused := fun i err hi href t₁ m e m' t₂ hd he => refused_frame hrun hi href hd he }

/-- Two ignitions and an actuation on the one-driver stand, with the second ignition asking while
the first one waits. -/
theorem two_ignitions_exclude :
    ∃ t s, IgnitionsExclude (Configuration.oneDriver [.actuate 0 true] [])
        [.ignition, .actuate 0 false, .ignition]
        (commands (Configuration.oneDriver [.actuate 0 true] [])
          [.ignition, .actuate 0 false, .ignition] (Shared.new [false])) t s ∧
      t.length = 8 :=
  ⟨_, _, ignitions_exclude (Configuration.oneDriver [.actuate 0 true] [])
    [.ignition, .actuate 0 false, .ignition] [false] (by simp)
    (by simp [CommandInRange, Configuration.oneDriver]) _ _
    (run_runSchedule ([0, 0, 0, 0, 2, 2, 2, 2].map fun i => (i, Env.fine)) _), by decide +kernel⟩

end Slonk
