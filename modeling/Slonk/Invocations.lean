/-
# Many invocations at once

Any number of invocations of `ignition` and `emergency_stop` over one shared state, one thread
each: `invocations config kinds shared`.  The file follows a single thread through the steps of
such a system, whatever the others do.

* `AtStage config f s i stage`: in `s`, thread `i` is at `stage` of its procedure and goes on as
  `f` once that has returned.
* `AtStage.step` is the only fact about the next step of such a thread, and `AtStage.advance` its
  converse, a step the thread can take.
* `guard_eq` says whose transition the guard's value is.
-/
import Slonk.Procedures

namespace Slonk

open Concurrency

/-- A system of the controller. -/
abbrev System := Sys Op Op.Ans Shared

/-- A trace of the controller. -/
abbrev Trace := List (Event Op.Ans)

/-- The invocations `kinds`, none of them started. -/
def invocations (config : Configuration) (kinds : List Procedure) (shared : Shared) : System :=
  ⟨shared, kinds.map fun kind => (kind.code config).discard⟩

variable {config : Configuration} {f : Except ExecutionError Unit → Prog Op Op.Ans Unit}
  {s s' : System} {e : Event Op.Ans} {i : Nat} {stage stage' : Stage}

/-! ## 1. Every operation of a procedure -/

theorem performActions_all {P : Op → Prop} (hsleep : ∀ duration, P (.sleep duration)) :
    ∀ {actions : List Action},
      (∀ driverId value, .actuate driverId value ∈ actions → P (.write driverId value)) →
      (performActions actions).run.All P
  | [], _ => trivial
  | .actuate driverId value :: rest, hw => by
    refine Prog.All.bind (f := thenRun _) ⟨hw _ _ List.mem_cons_self, ?_⟩ ?_
    · intro a
      cases a <;> trivial
    · intro a
      cases a with
      | error e => trivial
      | ok u => exact performActions_all hsleep fun d v h => hw d v (List.mem_cons_of_mem _ h)
  | .sleep duration :: rest, hw => by
    refine ⟨hsleep duration, fun _ => ?_⟩
    exact performActions_all hsleep fun d v h => hw d v (List.mem_cons_of_mem _ h)

/-- The operations left at a stage are transitions, waits and the writes it has left. -/
theorem Stage.code_all {P : Op → Prop} (hsleep : ∀ duration, P (.sleep duration))
    (hmove : ∀ newState ∈ [State.ignite, .postIgnite, .standby], P (.moveTo newState))
    (stage : Stage)
    (hw : ∀ driverId value, .actuate driverId value ∈ stage.rest config →
      P (.write driverId value)) : (stage.code config).All P := by
  have hlast : ∀ newState ∈ [State.ignite, .postIgnite, .standby], (moveTo newState).run.All P := by
    intro newState hn
    refine ⟨hmove _ hn, fun a => ?_⟩
    cases a <;> trivial
  have hseq : ∀ {p : Proc ExecutionError Unit} {g : Unit → Proc ExecutionError Unit},
      p.run.All P → (g ()).run.All P → (p >>= g).run.All P := by
    intro p g hp hg
    refine Prog.All.bind (f := thenRun g) hp fun a => ?_
    cases a with
    | error e => trivial
    | ok u => exact hg
  have hwait : ∀ duration, (sleep duration).run.All P :=
    fun duration => ⟨hsleep duration, fun _ => trivial⟩
  have hafter : (Stage.afterIgnition config).run.All P :=
    hseq (hlast .postIgnite (by decide)) (hseq (hwait _) (hlast .standby (by decide)))
  cases stage with
  | preWait =>
    exact hseq (hwait _) (hseq (hlast .ignite (by decide)) (hseq (performActions_all hsleep hw) hafter))
  | preDone => exact hseq (hlast .ignite (by decide)) (hseq (performActions_all hsleep hw) hafter)
  | igniting rest => exact hseq (performActions_all hsleep hw) hafter
  | postWait => exact hseq (hwait _) (hlast .standby (by decide))
  | postDone => exact hlast .standby (by decide)
  | stopping rest => exact hseq (performActions_all hsleep hw) (hlast .standby (by decide))

/-- The operations of a procedure are transitions, waits and the writes of its sequence. -/
theorem Procedure.code_all {P : Op → Prop} (hsleep : ∀ duration, P (.sleep duration))
    (kind : Procedure)
    (hmove : ∀ newState ∈ [kind.entry, .ignite, .postIgnite, .standby], P (.moveTo newState))
    (hw : ∀ driverId value, .actuate driverId value ∈ kind.actions config →
      P (.write driverId value)) : (kind.code config).All P := by
  obtain ⟨k, hcode, herr, hok⟩ := kind.code_eq config
  rw [hcode]
  refine ⟨hmove _ List.mem_cons_self, fun a => ?_⟩
  cases a with
  | error e => rw [herr]; trivial
  | ok u =>
    rw [hok]
    refine Stage.code_all hsleep (fun X hX => hmove X (List.mem_cons_of_mem _ hX)) _ ?_
    cases kind with
    | ignition => exact hw
    | emergencyStop => exact hw

/-- No procedure moves to `Quit`. -/
theorem Procedure.ne_quit {kind : Procedure} {newState : State}
    (h : newState ∈ [kind.entry, .ignite, .postIgnite, .standby]) : newState ≠ .quit := by
  rintro rfl
  cases kind <;> simp [Procedure.entry] at h

/-- The procedures start no thread. -/
theorem noFork_invocations (config : Configuration) (kinds : List Procedure)
    (shared : Shared) : NoFork (machine config) (invocations config kinds shared) := by
  intro p hp
  obtain ⟨kind, -, rfl⟩ := List.mem_map.mp hp
  exact (Procedure.code_all (fun _ => rfl) kind (fun _ _ => rfl) fun _ _ _ => rfl).discard

/-- **Every thread of a reachable state has a status**, from its own calls alone. -/
theorem invocations_status {kinds : List Procedure} {shared : Shared} {t : Trace}
    (h : Run (machine config) (invocations config kinds shared) t s) {kind : Procedure}
    (hk : kinds[i]? = some kind) :
    ∃ q, s.threads[i]? = some q.discard ∧ Status config kind (history i t) q := by
  have hp : (invocations config kinds shared).threads[i]? = some (kind.code config).discard := by
    simp [invocations, hk]
  obtain ⟨q, hq, hsteps⟩ := h.steps hp
  obtain ⟨p', hp', rfl⟩ := hsteps.of_discard
  exact ⟨p', hq, Status.of_steps hp'⟩

/-- Every thread of a reachable state is one of the invocations. -/
theorem invocations_kind {kinds : List Procedure} {shared : Shared} {t : Trace}
    (h : Run (machine config) (invocations config kinds shared) t s)
    {p : Prog Op Op.Ans Unit} (hp : s.threads[i]? = some p) : ∃ kind, kinds[i]? = some kind := by
  obtain ⟨p', hp', -⟩ := (noFork_invocations config kinds shared).steps h hp
  rw [invocations, List.getElem?_map] at hp'
  obtain ⟨kind, hk, -⟩ := Option.map_eq_some_iff.mp hp'
  exact ⟨kind, hk⟩

/-! ## 2. A thread at a stage -/

/-- Thread `i` is at a stage of its procedure, and goes on as `f` once that has returned. -/
def AtStage (config : Configuration) (f : Except ExecutionError Unit → Prog Op Op.Ans Unit)
    (s : System) (i : Nat) (stage : Stage) : Prop :=
  s.threads[i]? = some ((stage.code config).bind f)

/-- An invocation of `invocations` has nothing to do after its procedure. -/
def stop : Except ExecutionError Unit → Prog Op Op.Ans Unit := fun _ => .ret ()

/-- **The next step of a thread at a stage** is the stage's call.  If it succeeds the thread
is at the next stage, and otherwise its procedure has returned an error or panicked. -/
theorem AtStage.step (h : AtStage config f s i stage) (hs : (machine config).StepTo s e s')
    (hi : e.tid = i) :
    ∃ (a : Option (stage.call config).Ans) (env : Env),
      e.call = ⟨stage.call config, a⟩ ∧ exec (stage.call config) env s.shared = (a, s'.shared) ∧
      ((∃ b, a = some b ∧ Op.succeeds _ b ∧
          s'.threads[i]? = some ((codeAt config (stage.after config)).bind f)) ∨
        ((∀ b, a = some b → ¬ Op.succeeds _ b) ∧
          ∃ q, s'.threads[i]? = some q ∧ (q = .panic ∨ ∃ err, q = f (.error err)))) := by
  obtain ⟨k, env, hp, hans, hsh, -⟩ := hs.cases
  obtain ⟨k₀, hp₀, hself⟩ := hs.self
  obtain ⟨k', hcode, hok, herr⟩ := stage.code_eq config
  obtain ⟨tid, ⟨o, a⟩⟩ := e
  obtain rfl : tid = i := hi
  unfold AtStage at h
  rw [hcode, Prog.bind_op, hp₀] at h
  injection h with h
  injection h with ho hk₀
  subst ho
  obtain rfl := eq_of_heq hk₀
  refine ⟨a, env, rfl, Prod.ext hans.symm hsh.symm, ?_⟩
  cases a with
  | none => exact Or.inr ⟨nofun, _, hself, Or.inl rfl⟩
  | some b =>
    by_cases hb : Op.succeeds _ b
    · refine Or.inl ⟨b, rfl, hb, ?_⟩
      rw [hself, Prog.resume_some, hok b hb]
    · obtain ⟨err, hb'⟩ := herr b hb
      refine Or.inr ⟨?_, _, hself, Or.inr ⟨err, ?_⟩⟩
      · intro b' hb''
        rw [← Option.some.inj hb'']
        exact hb
      · rw [Prog.resume_some, hb', Prog.bind_ret]

theorem AtStage.step_op (h : AtStage config f s i stage) (hs : (machine config).StepTo s e s')
    (hi : e.tid = i) : e.call.op = stage.call config := by
  obtain ⟨a, env, hcall, -⟩ := h.step hs hi
  rw [hcall]

/-- **A step the thread can take**: if its call can succeed, it can go on to the next stage,
and nothing else moves. -/
theorem AtStage.advance (h : AtStage config f s i stage) {env : Env} {shared : Shared}
    {b : (stage.call config).Ans} (hb : Op.succeeds _ b)
    (hexec : exec (stage.call config) env s.shared = (some b, shared)) :
    ∃ s', (machine config).StepTo s ⟨i, ⟨stage.call config, some b⟩⟩ s' ∧ s'.shared = shared ∧
      s'.threads[i]? = some ((codeAt config (stage.after config)).bind f) ∧
      ∀ j, j ≠ i → s'.threads[j]? = s.threads[j]? := by
  obtain ⟨k, hcode, hok, -⟩ := stage.code_eq config
  unfold AtStage at h
  rw [hcode, Prog.bind_op] at h
  have hfork : (machine config).fork (stage.call config) = none := by
    cases stage with
    | igniting rest => match rest with | [] | .actuate _ _ :: _ | .sleep _ :: _ => rfl
    | stopping rest => match rest with | [] | .actuate _ _ :: _ | .sleep _ :: _ => rfl
    | _ => rfl
  have hlt : i < s.threads.length := (List.getElem?_eq_some_iff.mp h).1
  have hstep := Machine.StepTo.intro (M := machine config) h env
  rw [machine_exec, hexec, hfork] at hstep
  refine ⟨_, hstep, rfl, ?_, ?_⟩
  · simp only [Option.toList_none, List.append_nil, List.getElem?_set_self hlt,
      Prog.resume_some, hok b hb]
  · intro j hj
    simp only [Option.toList_none, List.append_nil, List.getElem?_set_ne hj.symm]

/-- **The step that enters a procedure**, when the guard allows it. -/
theorem Procedure.enter {kind : Procedure} (h : s.threads[i]? = some (kind.code config).discard)
    (hp : s.shared.state.poisoned = false)
    (hv : validTransition s.shared.state.state kind.entry = true) :
    ∃ s', (machine config).StepTo s ⟨i, ⟨.moveTo kind.entry, some (.ok ())⟩⟩ s' ∧
      s'.shared = { s.shared with state := { s.shared.state with state := kind.entry } } ∧
      AtStage config stop s' i (kind.start config) ∧ ∀ j, j ≠ i → s'.threads[j]? = s.threads[j]? := by
  obtain ⟨k, hcode, -, hok⟩ := kind.code_eq config
  rw [hcode, Prog.discard, Prog.bind_op] at h
  have hlt : i < s.threads.length := (List.getElem?_eq_some_iff.mp h).1
  have hexec : exec (.moveTo kind.entry) Env.fine s.shared = (some (.ok ()),
      { s.shared with state := { s.shared.state with state := kind.entry } }) := by
    rw [exec, Guard.moveTo_of_valid hp hv]
  have hstep := Machine.StepTo.intro (M := machine config) h Env.fine
  rw [machine_exec, hexec] at hstep
  refine ⟨_, hstep, rfl, ?_, ?_⟩
  · rw [AtStage, Prog.resume_some, hok]
    exact (List.getElem?_append_left (by simpa using hlt)).trans (List.getElem?_set_self hlt)
  · intro j hj
    exact (congrArg (·[j]?) (List.append_nil _)).trans (List.getElem?_set_ne hj.symm)

/-! ## 3. The stage is determined by the program -/

theorem Stage.eq_igniting {rest : List Action} (hp : stage.procedure = .ignition)
    (hc : stage.call config = (igniting rest).call config)
    (ha : stage.after config = (igniting rest).after config) : stage = igniting rest := by
  cases stage with
  | igniting rest' =>
    match rest, rest' with
    | [], [] => rfl
    | [], action :: _ => exact absurd hc (action.op_ne_moveTo _)
    | action :: _, [] => exact absurd hc.symm (action.op_ne_moveTo _)
    | _ :: _, _ :: _ =>
      obtain rfl := Action.op_injective hc
      simpa [Stage.after] using ha
  | preDone =>
    match rest with
    | [] => simp [Stage.after] at ha
    | action :: _ => exact absurd hc.symm (action.op_ne_moveTo _)
  | stopping rest' => cases hp
  | preWait => cases rest <;> simp [Stage.after] at ha
  | postWait => cases rest <;> simp [Stage.after] at ha
  | postDone => cases rest <;> simp [Stage.after] at ha

theorem Stage.eq_stopping {rest : List Action} (hp : stage.procedure = .emergencyStop)
    (hc : stage.call config = (stopping rest).call config)
    (ha : stage.after config = (stopping rest).after config) : stage = stopping rest := by
  cases stage with
  | stopping rest' =>
    match rest, rest' with
    | [], [] => rfl
    | [], action :: _ => exact absurd hc (action.op_ne_moveTo _)
    | action :: _, [] => exact absurd hc.symm (action.op_ne_moveTo _)
    | _ :: _, _ :: _ =>
      obtain rfl := Action.op_injective hc
      simpa [Stage.after] using ha
  | _ => cases hp

/-- Two stages of one procedure with the same operation and the same continuation are one. -/
theorem Stage.ext (hp : stage.procedure = stage'.procedure)
    (hc : stage.call config = stage'.call config)
    (ha : stage.after config = stage'.after config) : stage = stage' := by
  cases stage' with
  | igniting rest => exact Stage.eq_igniting hp hc ha
  | stopping rest => exact Stage.eq_stopping hp hc ha
  | _ =>
    cases stage with
    | igniting rest => exact (Stage.eq_igniting hp.symm hc.symm ha.symm).symm
    | stopping rest => cases hp
    | _ => simp_all [Stage.call, Stage.after]

/-- How many steps a stage is from the return of its procedure. -/
def Stage.rank (config : Configuration) : Stage → Nat
  | preWait => config.ignitionSequence.length + 5
  | preDone => config.ignitionSequence.length + 4
  | igniting rest => rest.length + 3
  | postWait => 2
  | postDone => 1
  | stopping rest => rest.length + 1

theorem Stage.rank_after (h : stage.after config = some stage') :
    stage'.rank config < stage.rank config := by
  cases stage with
  | igniting rest =>
    cases rest <;> obtain rfl := Option.some.inj h <;> simp [Stage.rank]
  | stopping rest =>
    cases rest with
    | nil => cases h
    | cons action rest => obtain rfl := Option.some.inj h; simp [Stage.rank]
  | postDone => cases h
  | preWait => obtain rfl := Option.some.inj h; simp [Stage.rank]
  | preDone => obtain rfl := Option.some.inj h; simp [Stage.rank]
  | postWait => obtain rfl := Option.some.inj h; simp [Stage.rank]

/-- Some answer lets a procedure go on. -/
theorem Op.exists_succeeds (o : Op) : ∃ a, Op.succeeds o a := by
  cases o with
  | moveTo newState => exact ⟨.ok (), rfl⟩
  | write driverId value => exact ⟨.ok (), rfl⟩
  | sleep duration => exact ⟨(), trivial⟩
  | now => exact ⟨(0 : Nat), trivial⟩
  | logCommand time tag cmd => exact ⟨.ok (), trivial⟩
  | userLog level message => exact ⟨.ok (), trivial⟩
  | send message => exact ⟨.ok (), trivial⟩
  | spawn cmd => exact ⟨(), trivial⟩

/-- Programs that try the same go on the same. -/
theorem Tries.bind_inj {o o' : Op} {next next' p p' : Prog Op Op.Ans (Except ExecutionError Unit)}
    (h : Tries o next p) (h' : Tries o' next' p') (hp : p.bind f = p'.bind f) :
    o = o' ∧ next.bind f = next'.bind f := by
  obtain ⟨k, rfl, hok, -⟩ := h
  obtain ⟨k', rfl, hok', -⟩ := h'
  rw [Prog.bind_op, Prog.bind_op] at hp
  injection hp with ho hk
  subst ho
  obtain ⟨a, ha⟩ := o.exists_succeeds
  refine ⟨rfl, ?_⟩
  rw [← hok a ha, ← hok' a ha]
  exact congrFun (eq_of_heq hk) a

/-- **A thread is at one stage at most**, as long as what follows its procedure does not begin
like a stage. -/
theorem Stage.code_bind_injective
    (hf : ∀ stage k, f (.ok ()) ≠ .op (Stage.call config stage) k)
    (hp : stage.procedure = stage'.procedure)
    (h : (stage.code config).bind f = (stage'.code config).bind f) : stage = stage' := by
  induction hr : stage.rank config using Nat.strong_induction_on generalizing stage stage' with
  | _ n ih =>
    have hcode := stage.code_eq config
    have hcode' := stage'.code_eq config
    obtain ⟨hc, hnext⟩ := hcode.bind_inj hcode' h
    refine Stage.ext hp hc ?_
    cases ha : stage.after config with
    | none =>
      cases ha' : stage'.after config with
      | none => rfl
      | some st' =>
        obtain ⟨k', hst', -⟩ := st'.code_eq config
        rw [ha, ha', codeAt, codeAt, hst'] at hnext
        exact absurd hnext (hf st' _)
    | some st =>
      cases ha' : stage'.after config with
      | none =>
        obtain ⟨k, hst, -⟩ := st.code_eq config
        rw [ha, ha', codeAt, codeAt, hst] at hnext
        exact absurd hnext.symm (hf st _)
      | some st' =>
        have hpp : st.procedure = st'.procedure := by
          rw [Stage.procedure_after ha, Stage.procedure_after ha', hp]
        rw [ha, ha'] at hnext
        exact congrArg some (ih _ (hr ▸ Stage.rank_after ha) hpp hnext rfl)

/-- After an invocation there is nothing that could be taken for a stage. -/
theorem stop_ne_stage (stage : Stage) (k : (stage.call config).Ans → Prog Op Op.Ans Unit) :
    stop (.ok ()) ≠ .op (stage.call config) k := nofun

theorem AtStage.unique (h : AtStage config stop s i stage) (h' : AtStage config stop s i stage')
    (hp : stage.procedure = stage'.procedure) : stage = stage' :=
  Stage.code_bind_injective stop_ne_stage hp (Option.some.inj (h.symm.trans h'))

/-- What it is about to do. -/
theorem AtStage.pending (h : AtStage config f s i stage) :
    s.threads[i]?.bind Prog.pending = some (stage.call config) := by
  obtain ⟨k, hcode, -⟩ := stage.code_eq config
  rw [show s.threads[i]? = _ from h, hcode]
  rfl

theorem AtStage.not_finished (h : AtStage config f s i stage) {q : Prog Op Op.Ans Unit}
    (hq : s.threads[i]? = some q) : ¬ q.Finished := by
  obtain ⟨k, hcode, -⟩ := stage.code_eq config
  unfold AtStage at h
  rw [hcode] at h
  obtain rfl := Option.some.inj (hq.symm.trans h)
  exact id

/-! ## 4. What the threads share -/

/-- The driver lines after any operation: as many as before, and poisoned if they were. -/
theorem exec_lines (o : Op) (env : Env) (shared : Shared) :
    (exec o env shared).2.driverLines.val.length = shared.driverLines.val.length ∧
      (shared.driverLines.poisoned = true → (exec o env shared).2.driverLines.poisoned = true) := by
  by_cases hw : ∃ driverId value, o = .write driverId value
  · obtain ⟨driverId, value, rfl⟩ := hw
    cases hp : shared.driverLines.poisoned with
    | true => rw [exec_write_of_poisoned hp]; exact ⟨rfl, fun _ => hp⟩
    | false =>
      by_cases hlt : driverId.toNat < shared.driverLines.val.length
      · rw [exec_write_of_lt hp hlt]
        split
        · exact ⟨rfl, nofun⟩
        · exact ⟨List.length_set, nofun⟩
      · rw [exec_write_of_ge hp (Nat.not_lt.mp hlt)]
        exact ⟨rfl, nofun⟩
  · rw [exec_driverLines (fun d v h => hw ⟨d, v, h⟩)]
    exact ⟨rfl, id⟩

theorem lines_step (h : (machine config).StepTo s e s') :
    s'.shared.driverLines.val.length = s.shared.driverLines.val.length ∧
      (s.shared.driverLines.poisoned = true → s'.shared.driverLines.poisoned = true) := by
  obtain ⟨env, -, hsh⟩ := h.exec
  rw [hsh]
  exact exec_lines _ _ _

/-- The write a call makes reached a line that was there. -/
theorem wrote_of_exec {o : Op} {env : Env} {shared shared' : Shared} {a : Option o.Ans}
    (h : exec o env shared = (a, shared')) {driverId : UInt8} {value : Bool}
    (hw : wrote ⟨o, a⟩ = some (driverId, value)) :
    o = .write driverId value ∧ shared.driverLines.poisoned = false ∧
      driverId.toNat < shared.driverLines.val.length := by
  cases o with
  | write d v =>
    cases hp : shared.driverLines.poisoned with
    | true =>
      rw [exec_write_of_poisoned hp] at h
      obtain ⟨rfl, -⟩ := Prod.mk.inj h
      cases hw
    | false =>
      by_cases hlt : d.toNat < shared.driverLines.val.length
      · have hdv : (d, v) = (driverId, value) := by
          rw [exec_write_of_lt hp hlt] at h
          split at h <;> obtain ⟨rfl, -⟩ := Prod.mk.inj h <;> exact Option.some.inj hw
        obtain ⟨rfl, rfl⟩ := Prod.mk.inj hdv
        exact ⟨rfl, rfl, hlt⟩
      · rw [exec_write_of_ge hp (Nat.not_lt.mp hlt)] at h
        obtain ⟨rfl, -⟩ := Prod.mk.inj h
        cases hw
  | _ => cases hw

/-- A transition that succeeded was allowed, and installed its target. -/
theorem moved_of_exec {o : Op} {env : Env} {shared shared' : Shared} {a : Option o.Ans}
    (h : exec o env shared = (a, shared')) {newState : State}
    (hm : moved ⟨o, a⟩ = some newState) :
    o = .moveTo newState ∧ shared.state.poisoned = false ∧
      validTransition shared.state.state newState = true ∧
      shared'.state = { shared.state with state := newState } := by
  cases o with
  | moveTo target =>
    obtain ⟨ha, hs⟩ := Prod.mk.inj h
    subst ha hs
    have hok : (shared.state.moveTo target).1 = .ok () ∧ target = newState := by
      cases hr : (shared.state.moveTo target).1 with
      | error e => rw [hr] at hm; cases hm
      | ok u => rw [hr] at hm; exact ⟨rfl, Option.some.inj hm⟩
    obtain ⟨hr, rfl⟩ := hok
    obtain ⟨hp, hv, hs⟩ := Guard.moveTo_ok hr
    exact ⟨rfl, hp, hv, hs⟩
  | _ => cases hm

/-- A call that is no successful transition leaves the guard alone. -/
theorem state_of_not_moved {o : Op} {env : Env} {shared shared' : Shared} {a : Option o.Ans}
    (h : exec o env shared = (a, shared')) (hm : moved ⟨o, a⟩ = none) :
    shared'.state = shared.state := by
  by_cases ho : ∃ target, o = .moveTo target
  · obtain ⟨target, rfl⟩ := ho
    obtain ⟨ha, hs⟩ := Prod.mk.inj h
    subst ha hs
    cases hr : (shared.state.moveTo target).1 with
    | error e => exact Guard.moveTo_error hr
    | ok u => rw [hr] at hm; cases hm
  · have := exec_state (fun target h => ho ⟨target, h⟩) env shared
    rw [h] at this
    exact this

theorem StepTo_exec (h : (machine config).StepTo s e s') :
    ∃ env, exec e.call.op env s.shared = (e.call.ans, s'.shared) := by
  obtain ⟨env, ha, hs⟩ := h.exec
  exact ⟨env, Prod.ext ha.symm hs.symm⟩

/-- The successful transitions of a trace: who, and to what. -/
def installs (t : Trace) : List (Nat × State) :=
  t.filterMap fun e => (moved e.call).map (e.tid, ·)

theorem installs_append (t t' : Trace) : installs (t ++ t') = installs t ++ installs t' :=
  List.filterMap_append

theorem installs_concat_none (t : Trace) (h : moved e.call = none) :
    installs (t ++ [e]) = installs t := by
  simp [installs, h]

theorem installs_concat_some (t : Trace) {newState : State} (h : moved e.call = some newState) :
    installs (t ++ [e]) = installs t ++ [(e.tid, newState)] := by
  simp [installs, h]

/-- **The guard holds what the last successful transition installed**, and is as poisoned as
it was. -/
theorem guard_eq {s₀ : System} {t : Trace} (h : Run (machine config) s₀ t s) :
    s.shared.state.state = (((installs t).getLast?).map (·.2)).getD s₀.shared.state.state ∧
      s.shared.state.poisoned = s₀.shared.state.poisoned := by
  induction h with
  | refl => exact ⟨rfl, rfl⟩
  | @tail s s' t e _ hs ih =>
    obtain ⟨env, hexec⟩ := StepTo_exec hs
    cases hm : moved e.call with
    | none => rw [installs_concat_none t hm, state_of_not_moved hexec hm]; exact ih
    | some newState =>
      obtain ⟨-, -, -, hs'⟩ := moved_of_exec hexec hm
      rw [installs_concat_some t hm, hs']
      exact ⟨by simp, ih.2⟩

/-- A guard that has been moved is not poisoned. -/
theorem guard_unpoisoned {s₀ : System} {t : Trace} (h : Run (machine config) s₀ t s) (he : e ∈ t)
    (hm : moved e.call ≠ none) : s.shared.state.poisoned = false := by
  obtain ⟨t₁, t₂, rfl⟩ := List.append_of_mem he
  obtain ⟨m, m', hd⟩ := h.moment
  obtain ⟨newState, hm⟩ := Option.ne_none_iff_exists'.mp hm
  obtain ⟨env, hexec⟩ := StepTo_exec hd.step
  rw [(guard_eq h).2, ← (guard_eq hd.before).2]
  exact (moved_of_exec hexec hm).2.1

/-- A guard that has been moved holds a state that one of the moves installed. -/
theorem guard_installed {s₀ : System} {t : Trace} (h : Run (machine config) s₀ t s) (he : e ∈ t)
    (hm : moved e.call ≠ none) : ∃ e' ∈ t, e'.call.op = .moveTo s.shared.state.state := by
  obtain ⟨newState, hm⟩ := Option.ne_none_iff_exists'.mp hm
  have hne : installs t ≠ [] := by
    refine List.ne_nil_of_mem (a := (e.tid, newState)) (List.mem_filterMap.mpr ⟨e, he, ?_⟩)
    rw [hm, Option.map_some]
  obtain ⟨last, hlast⟩ := Option.ne_none_iff_exists'.mp (mt List.getLast?_eq_none_iff.mp hne)
  have hstate : s.shared.state.state = last.2 := by rw [(guard_eq h).1, hlast]; rfl
  obtain ⟨e', he', hmap⟩ := List.mem_filterMap.mp (List.mem_of_getLast? hlast)
  obtain ⟨X, hX, rfl⟩ := Option.map_eq_some_iff.mp hmap
  obtain ⟨t₁, t₂, rfl⟩ := List.append_of_mem he'
  obtain ⟨m, m', hd⟩ := h.moment
  obtain ⟨env, hexec⟩ := StepTo_exec hd.step
  exact ⟨e', he', hstate ▸ (moved_of_exec hexec hX).1⟩

/-! ## 5. The threads of `invocations` -/

/-- Nobody asks the guard to quit. -/
theorem invocations_ne_quit {kinds : List Procedure} {shared : Shared} {t : Trace}
    (h : Run (machine config) (invocations config kinds shared) t s) (he : e ∈ t) :
    e.call.op ≠ .moveTo .quit := by
  refine (Run.all (P := fun o => o ≠ .moveTo .quit ∧ (machine config).fork o = none) ?_ ?_ h).1 e he
    |>.1
  · intro o p ho hp
    rw [ho.2] at hp
    cases hp
  · intro p hp
    obtain ⟨kind, -, rfl⟩ := List.mem_map.mp hp
    refine (Procedure.code_all (fun _ => ⟨nofun, rfl⟩) kind (fun newState hn => ⟨?_, rfl⟩)
      fun _ _ _ => ⟨nofun, rfl⟩).discard
    exact fun h => Procedure.ne_quit hn (Op.moveTo.inj h)

/-- An invocation at a stage is at a stage of its own procedure; it has made that stage's
transitions and none of the writes that the stage has left. -/
theorem invocations_running {kinds : List Procedure} {shared : Shared} {t : Trace}
    (h : Run (machine config) (invocations config kinds shared) t s)
    (hat : AtStage config stop s i stage) :
    ∃ stage', kinds[i]? = some stage'.procedure ∧ AtStage config stop s i stage' ∧
      (history i t).filterMap moved = stage'.moves ∧
      (history i t).filterMap wrote ++ actuations (stage'.rest config)
        = actuations (stage'.procedure.actions config) := by
  obtain ⟨kind, hk⟩ := invocations_kind h hat
  obtain ⟨q, hq, hs⟩ := invocations_status h hk
  have hqs : q.discard = (stage.code config).bind stop := Option.some.inj (hq.symm.trans hat)
  generalize history i t = hist at hs ⊢
  cases hs with
  | fresh =>
    obtain ⟨k, hcode, -⟩ := kind.code_eq config
    obtain ⟨k', hcode', -⟩ := stage.code_eq config
    rw [hcode, hcode', Prog.bind_op] at hqs
    injection hqs with ho
    exact absurd ho.symm (stage.call_ne_entry config kind)
  | running stage' hm hw => exact ⟨stage', hk, hq, hm, hw⟩
  | ended hf =>
    refine absurd ?_ (hat.not_finished hq)
    cases q with
    | ret a => trivial
    | panic => trivial
    | op o k => exact hf.elim

theorem invocations_atStage {kinds : List Procedure} {shared : Shared} {t : Trace}
    (h : Run (machine config) (invocations config kinds shared) t s)
    (hk : kinds[i]? = some stage.procedure) (hat : AtStage config stop s i stage) :
    (history i t).filterMap moved = stage.moves ∧
      (history i t).filterMap wrote ++ actuations (stage.rest config)
        = actuations (stage.procedure.actions config) := by
  obtain ⟨stage', hk', hat', hm, hw⟩ := invocations_running h hat
  obtain rfl := hat'.unique hat (Option.some.inj (hk'.symm.trans hk))
  exact ⟨hm, hw⟩

/-- **The next step of an invocation.**  It is the entry of a procedure that has not made a
call yet, or the step of a stage. -/
theorem invocations_step {kinds : List Procedure} {shared : Shared} {t : Trace}
    (h : Run (machine config) (invocations config kinds shared) t s)
    (hs : (machine config).StepTo s e s') :
    ∃ kind, kinds[e.tid]? = some kind ∧
      ((history e.tid t = [] ∧ e.call.op = .moveTo kind.entry ∧
          ((moved e.call = some kind.entry ∧ AtStage config stop s' e.tid (kind.start config)) ∨
            (moved e.call = none ∧ ∃ q, s'.threads[e.tid]? = some q ∧ q.Finished))) ∨
        ∃ stage, stage.procedure = kind ∧ AtStage config stop s e.tid stage) := by
  obtain ⟨k, hpend, hself⟩ := hs.self
  obtain ⟨kind, hk⟩ := invocations_kind h hpend
  obtain ⟨q, hq, hst⟩ := invocations_status h hk
  have hqs : q.discard = .op e.call.op k := Option.some.inj (hq.symm.trans hpend)
  refine ⟨kind, hk, ?_⟩
  generalize hh : history e.tid t = hist at hst
  cases hst with
  | running stage hm hw => exact Or.inr ⟨stage, rfl, hq⟩
  | ended hf =>
    cases q with
    | ret a => cases hqs
    | panic => cases hqs
    | op o k => exact hf.elim
  | fresh =>
    obtain ⟨k', hcode, herr, hok⟩ := kind.code_eq config
    obtain ⟨tid, ⟨o, a⟩⟩ := e
    rw [hcode] at hqs
    injection hqs with ho hk'
    obtain rfl : Op.moveTo kind.entry = o := ho
    obtain rfl := eq_of_heq hk'
    refine Or.inl ⟨rfl, rfl, ?_⟩
    match a with
    | none => exact Or.inr ⟨rfl, _, hself, trivial⟩
    | some (.error err) => exact Or.inr ⟨rfl, _, hself, by rw [Prog.resume_some, herr]; trivial⟩
    | some (.ok ()) =>
      refine Or.inl ⟨rfl, ?_⟩
      rw [AtStage, hself, Prog.resume_some, hok]
      rfl

/-- The step of a stage, once more: the thread is at the next stage or finished. -/
theorem AtStage.step_stop (h : AtStage config stop s i stage)
    (hs : (machine config).StepTo s e s') (hi : e.tid = i) :
    ∃ (a : Option (stage.call config).Ans) (env : Env),
      e.call = ⟨stage.call config, a⟩ ∧ exec (stage.call config) env s.shared = (a, s'.shared) ∧
      ((∃ b stage', a = some b ∧ Op.succeeds _ b ∧ stage.after config = some stage' ∧
          AtStage config stop s' i stage') ∨
        ∃ q, s'.threads[i]? = some q ∧ q.Finished) := by
  obtain ⟨a, env, hcall, hexec, hcases⟩ := h.step hs hi
  refine ⟨a, env, hcall, hexec, ?_⟩
  rcases hcases with ⟨b, hb, hsucc, hnext⟩ | ⟨-, q, hq, hfin⟩
  · cases hafter : stage.after config with
    | none => rw [hafter] at hnext; exact Or.inr ⟨_, hnext, trivial⟩
    | some stage' => rw [hafter] at hnext; exact Or.inl ⟨b, stage', hb, hsucc, rfl, hnext⟩
  · refine Or.inr ⟨q, hq, ?_⟩
    rcases hfin with rfl | ⟨err, rfl⟩
    · trivial
    · trivial

end Slonk
