/-
# What an invocation can still do

From any reachable state, an invocation in the middle of a procedure has futures, and some things
are in none of them.

* `AtStage.reach_move` and `AtStage.reach_write` let the thread run alone up to its next
  transition, or its next write, when the driver lines allow what comes before; they are what
  shows a condition to be necessary.
* `Silent.run` is the other side: a thread whose next write is blocked, or that has none, writes
  nothing in any continuation.
-/
import Slonk.Invocations

namespace Slonk

open Concurrency

variable {config : Configuration} {f : Except ExecutionError Unit → Prog Op Op.Ans Unit}
  {s s' : System} {e : Event Op.Ans} {i : Nat} {stage stage' : Stage}

/-! ## 1. A thread that runs alone -/

/-- The stage of a procedure that has these actions of its sequence left. -/
def Procedure.performing : Procedure → List Action → Stage
  | .ignition, rest => .igniting rest
  | .emergencyStop, rest => .stopping rest

/-- The driver lines allow all of these actions: every write in them is in range, and the lock
is not poisoned. -/
def Performable (lines : Locked (List Bool)) (actions : List Action) : Prop :=
  ∀ driverId value, (driverId, value) ∈ actuations actions →
    lines.poisoned = false ∧ driverId.toNat < lines.val.length

/-- An action that has just succeeded was allowed. -/
theorem performable_of_succeeds {o : Op} {action : Action} (ho : o = action.op) {env : Env}
    {shared shared' : Shared} {b : o.Ans} (h : exec o env shared = (some b, shared'))
    (hb : Op.succeeds _ b) : Performable shared.driverLines [action] := by
  subst ho
  cases action with
  | sleep duration => nofun
  | actuate driverId value =>
    obtain rfl : b = .ok () := hb
    have hw : wrote ⟨Op.write driverId value, some (.ok ())⟩ = some (driverId, value) := rfl
    obtain ⟨-, hp, hlt⟩ := wrote_of_exec h hw
    intro d v hm
    obtain ⟨rfl, rfl⟩ := Prod.mk.inj (List.mem_singleton.mp hm)
    exact ⟨hp, hlt⟩

/-- From `s` to `s'` only thread `i` moves, and it leaves the guard alone. -/
structure Alone (config : Configuration) (i : Nat) (s : System) (t : Trace) (s' : System) :
    Prop where
  run : Run (machine config) s t s'
  quiet : ∀ e ∈ t, e.tid = i ∧ moved e.call = none
  state : s'.shared.state = s.shared.state
  length : s'.shared.driverLines.val.length = s.shared.driverLines.val.length
  poisoned : s'.shared.driverLines.poisoned = s.shared.driverLines.poisoned
  others : ∀ j, j ≠ i → s'.threads[j]? = s.threads[j]?

theorem Alone.refl (config : Configuration) (i : Nat) (s : System) : Alone config i s [] s :=
  ⟨Run.refl, fun _ he => absurd he List.not_mem_nil, rfl, rfl, rfl, fun _ _ => rfl⟩

theorem Alone.trans {m : System} {t t' : Trace} (h : Alone config i s t m)
    (h' : Alone config i m t' s') : Alone config i s (t ++ t') s' where
  run := h.run.trans h'.run
  quiet e he := (List.mem_append.mp he).elim (h.quiet e) (h'.quiet e)
  state := h'.state.trans h.state
  length := h'.length.trans h.length
  poisoned := h'.poisoned.trans h.poisoned
  others j hj := (h'.others j hj).trans (h.others j hj)

theorem Alone.installs {t : Trace} (h : Alone config i s t s') : installs t = [] := by
  refine List.filterMap_eq_nil_iff.mpr fun e he => ?_
  rw [(h.quiet e he).2, Option.map_none]

theorem Alone.performable {t : Trace} (h : Alone config i s t s') {actions : List Action}
    (hp : Performable s.shared.driverLines actions) :
    Performable s'.shared.driverLines actions := by
  intro driverId value hm
  rw [h.poisoned, h.length]
  exact hp driverId value hm

/-- An action that can be performed succeeds when nothing fails. -/
theorem exec_performable {action : Action} {shared : Shared}
    (h : Performable shared.driverLines [action]) :
    ∃ b shared', exec action.op Env.fine shared = (some b, shared') ∧ Op.succeeds _ b ∧
      moved ⟨action.op, some b⟩ = none ∧ shared'.state = shared.state ∧
      shared'.driverLines.val.length = shared.driverLines.val.length ∧
      shared'.driverLines.poisoned = shared.driverLines.poisoned := by
  cases action with
  | sleep duration => exact ⟨(), shared, rfl, trivial, rfl, rfl, rfl, rfl⟩
  | actuate driverId value =>
    obtain ⟨hp, hlt⟩ := h driverId value (by simp)
    exact ⟨.ok (),
      { shared with driverLines.val := shared.driverLines.val.set driverId.toNat value },
      exec_write_of_lt hp hlt value Env.fine, rfl, rfl, rfl, List.length_set, rfl⟩

/-- One action, performed alone. -/
theorem AtStage.perform {kind : Procedure} {action : Action} {rest : List Action}
    (h : AtStage config f s i (kind.performing (action :: rest)))
    (hp : Performable s.shared.driverLines [action]) :
    ∃ b s', Op.succeeds action.op b ∧ Alone config i s [⟨i, ⟨action.op, some b⟩⟩] s' ∧
      AtStage config f s' i (kind.performing rest) := by
  obtain ⟨b, shared', hexec, hb, hm, hst, hlen, hpo⟩ := exec_performable hp
  have hstep : ∃ s', (machine config).StepTo s ⟨i, ⟨action.op, some b⟩⟩ s' ∧
      s'.shared = shared' ∧ AtStage config f s' i (kind.performing rest) ∧
      ∀ j, j ≠ i → s'.threads[j]? = s.threads[j]? := by
    cases kind with
    | ignition => exact AtStage.advance h hb hexec
    | emergencyStop => exact AtStage.advance h hb hexec
  obtain ⟨s', hs, rfl, hat, hothers⟩ := hstep
  refine ⟨b, s', hb, ⟨Run.single hs, ?_, hst, hlen, hpo, hothers⟩, hat⟩
  intro e he
  obtain rfl := List.mem_singleton.mp he
  exact ⟨rfl, hm⟩

/-- Several actions, performed alone. -/
theorem AtStage.perform_all {kind : Procedure} {rest : List Action} :
    ∀ {done : List Action} {s : System},
      AtStage config f s i (kind.performing (done ++ rest)) →
      Performable s.shared.driverLines done →
      ∃ t s', Alone config i s t s' ∧ AtStage config f s' i (kind.performing rest)
  | [], s, h, _ => ⟨[], s, Alone.refl config i s, h⟩
  | action :: done, s, h, hp => by
    have hone : Performable s.shared.driverLines [action] := by
      intro d v hm
      refine hp d v ?_
      rw [mem_actuations] at hm ⊢
      rw [List.mem_singleton.mp hm]
      exact List.mem_cons_self
    have hrest : Performable s.shared.driverLines done := by
      intro d v hm
      refine hp d v ?_
      rw [mem_actuations] at hm ⊢
      exact List.mem_cons_of_mem _ hm
    obtain ⟨b, m, -, halone, hat⟩ := h.perform hone
    obtain ⟨t, s', halone', hat'⟩ := hat.perform_all (halone.performable hrest)
    exact ⟨_, s', halone.trans halone', hat'⟩

/-- **Up to the next transition.**  Left alone, a thread whose pending actions can be performed
comes to ask for the state its stage asks for next. -/
theorem AtStage.reach_move (h : AtStage config f s i stage)
    (hp : Performable s.shared.driverLines stage.pending) :
    ∃ t s' stage', Alone config i s t s' ∧ AtStage config f s' i stage' ∧
      stage'.call config = .moveTo stage.next := by
  have hsleep : ∀ {duration : Duration} {stage' : Stage},
      stage.call config = .sleep duration → stage.after config = some stage' →
      ∃ t s', Alone config i s t s' ∧ AtStage config f s' i stage' := by
    intro duration stage' hc ha
    have hb : ∃ b, exec (stage.call config) Env.fine s.shared = (some b, s.shared) ∧
        Op.succeeds _ b ∧ moved ⟨stage.call config, some b⟩ = none := by
      rw [hc]; exact ⟨(), rfl, trivial, rfl⟩
    obtain ⟨b, hexec, hb, hm⟩ := hb
    obtain ⟨s', hs, hsh, hat, hothers⟩ := h.advance hb hexec
    rw [ha] at hat
    refine ⟨_, s', ⟨Run.single hs, ?_, by rw [hsh], by rw [hsh], by rw [hsh], hothers⟩, hat⟩
    intro e he
    obtain rfl := List.mem_singleton.mp he
    exact ⟨rfl, hm⟩
  cases stage with
  | preDone => exact ⟨[], s, .preDone, Alone.refl config i s, h, rfl⟩
  | postDone => exact ⟨[], s, .postDone, Alone.refl config i s, h, rfl⟩
  | preWait =>
    obtain ⟨t, s', ha, hat⟩ := hsleep rfl rfl
    exact ⟨t, s', .preDone, ha, hat, rfl⟩
  | postWait =>
    obtain ⟨t, s', ha, hat⟩ := hsleep rfl rfl
    exact ⟨t, s', .postDone, ha, hat, rfl⟩
  | igniting rest =>
    have h' : AtStage config f s i (Procedure.ignition.performing (rest ++ [])) := by
      rwa [List.append_nil]
    obtain ⟨t, s', ha, hat⟩ := h'.perform_all hp
    exact ⟨t, s', .igniting [], ha, hat, rfl⟩
  | stopping rest =>
    have h' : AtStage config f s i (Procedure.emergencyStop.performing (rest ++ [])) := by
      rwa [List.append_nil]
    obtain ⟨t, s', ha, hat⟩ := h'.perform_all hp
    exact ⟨t, s', .stopping [], ha, hat, rfl⟩

/-- Thread `i` performs a driver write in this part of a trace. -/
def WritesIn (t : Trace) (i : Nat) : Prop := ∃ e ∈ t, e.tid = i ∧ wrote e.call ≠ none

/-- The driver lines allow the first write of these actions, and there is one. -/
def Writable (lines : Locked (List Bool)) (actions : List Action) : Prop :=
  ∃ driverId value, (actuations actions).head? = some (driverId, value) ∧
    lines.poisoned = false ∧ driverId.toNat < lines.val.length

/-- **Up to the next write.**  Left alone, a thread whose first write is allowed makes it. -/
theorem AtStage.reach_write {kind : Procedure} :
    ∀ {rest : List Action} {s : System}, AtStage config f s i (kind.performing rest) →
      Writable s.shared.driverLines rest →
      ∃ t s', Run (machine config) s t s' ∧ WritesIn t i
  | [], s, _, hw => by
    obtain ⟨d, v, hh, -⟩ := hw
    cases hh
  | .actuate driverId value :: rest, s, h, hw => by
    obtain ⟨d, v, hh, hp, hlt⟩ := hw
    obtain ⟨rfl, rfl⟩ := Prod.mk.inj (Option.some.inj hh)
    have hone : Performable s.shared.driverLines [.actuate driverId value] := by
      intro d v hm
      obtain ⟨rfl, rfl⟩ := Prod.mk.inj (List.mem_singleton.mp hm)
      exact ⟨hp, hlt⟩
    obtain ⟨b, s', hb, halone, -⟩ := h.perform hone
    obtain rfl : b = .ok () := hb
    exact ⟨_, s', halone.run, _, List.mem_singleton_self _, rfl, nofun⟩
  | .sleep duration :: rest, s, h, hw => by
    obtain ⟨b, m, -, halone, hat⟩ := h.perform (by intro d v hm; cases hm)
    have hw' : Writable m.shared.driverLines rest := by
      obtain ⟨d, v, hh, hp, hlt⟩ := hw
      exact ⟨d, v, hh, by rw [halone.poisoned]; exact hp, by rw [halone.length]; exact hlt⟩
    obtain ⟨t, s', hrun, e, he, hi, hwr⟩ := hat.reach_write hw'
    exact ⟨_, s', halone.run.trans hrun, e, List.mem_append_right _ he, hi, hwr⟩

/-! ## 2. A thread that writes no more -/

/-- The first write of these actions is blocked, by a poisoned lock or a missing line. -/
def Blocked (lines : Locked (List Bool)) (actions : List Action) : Prop :=
  ∃ driverId value, (actuations actions).head? = some (driverId, value) ∧
    (lines.poisoned = true ∨ lines.val.length ≤ driverId.toNat)

/-- Actions whose first write is not allowed have none, or it is blocked. -/
theorem blocked_of_not_writable {lines : Locked (List Bool)} {actions : List Action}
    (h : ¬ Writable lines actions) : actuations actions = [] ∨ Blocked lines actions := by
  cases hh : (actuations actions).head? with
  | none => exact Or.inl (List.head?_eq_none_iff.mp hh)
  | some dv =>
    refine Or.inr ⟨dv.1, dv.2, hh, ?_⟩
    by_contra hblocked
    rw [not_or, Bool.not_eq_true, Nat.not_le] at hblocked
    exact h ⟨dv.1, dv.2, hh, hblocked.1, hblocked.2⟩

theorem Blocked.ne_nil {lines : Locked (List Bool)} {actions : List Action}
    (h : Blocked lines actions) : actuations actions ≠ [] := by
  rintro hnil
  obtain ⟨driverId, value, hh, -⟩ := h
  rw [hnil] at hh
  cases hh

/-- What is blocked stays blocked. -/
theorem Blocked.step {actions : List Action} (h : Blocked s.shared.driverLines actions)
    (hs : (machine config).StepTo s e s') : Blocked s'.shared.driverLines actions := by
  obtain ⟨driverId, value, hh, hb⟩ := h
  obtain ⟨hlen, hpo⟩ := lines_step hs
  refine ⟨driverId, value, hh, ?_⟩
  rw [hlen]
  exact hb.imp_left hpo

/-- A blocked sequence does not allow its first action to write. -/
theorem Blocked.wrote_eq_none {o : Op} {action : Action} {rest : List Action}
    (ho : o = action.op) {env : Env} {shared shared' : Shared} {a : Option o.Ans}
    (h : Blocked shared.driverLines (action :: rest)) (hexec : exec o env shared = (a, shared')) :
    wrote ⟨o, a⟩ = none := by
  by_contra hw
  obtain ⟨⟨d, v⟩, hdv⟩ := Option.ne_none_iff_exists'.mp hw
  obtain ⟨hwrite, hp, hlt⟩ := wrote_of_exec hexec hdv
  obtain rfl : action = .actuate d v := Action.op_injective (ho.symm.trans hwrite)
  obtain ⟨driverId, value, hh, hb⟩ := h
  obtain ⟨rfl, rfl⟩ := Prod.mk.inj (Option.some.inj hh)
  rcases hb with hb | hb
  · rw [hp] at hb; cases hb
  · omega

/-- If the first action of a blocked sequence succeeds it was a wait, and the rest is blocked. -/
theorem Blocked.tail {o : Op} {action : Action} {rest : List Action} (ho : o = action.op)
    {env : Env} {shared shared' : Shared} {b : o.Ans}
    (h : Blocked shared.driverLines (action :: rest))
    (hexec : exec o env shared = (some b, shared')) (hb : Op.succeeds _ b) :
    Blocked shared.driverLines rest := by
  cases action with
  | sleep duration => exact h
  | actuate d v =>
    have hw := h.wrote_eq_none ho hexec
    subst ho
    obtain rfl : b = .ok () := hb
    cases hw

/-- Thread `i` performs no write from here on: its program has none, or the first one is
blocked and it will get no further. -/
def Silent (config : Configuration) (s : System) (i : Nat) : Prop :=
  ∃ p, s.threads[i]? = some p ∧
    (p.All (fun o => ∀ driverId value, o ≠ .write driverId value) ∨
      ∃ kind rest, p = ((Procedure.performing kind rest).code config).bind stop ∧
        Blocked s.shared.driverLines rest)

/-- A stage that has no write left performs none. -/
theorem AtStage.silent_of_rest (h : AtStage config stop s i stage)
    (hr : actuations (stage.rest config) = []) : Silent config s i := by
  refine ⟨_, h, Or.inl (Prog.All.bind (Stage.code_all (fun _ => nofun) (fun _ _ => nofun) _ ?_)
    fun _ => trivial)⟩
  intro driverId value hm
  rw [← mem_actuations, hr] at hm
  cases hm

/-- A thread whose next write is not allowed performs none. -/
theorem AtStage.silent {kind : Procedure} {rest : List Action}
    (h : AtStage config stop s i (kind.performing rest))
    (hw : ¬ Writable s.shared.driverLines rest) : Silent config s i := by
  rcases blocked_of_not_writable hw with hnil | hblocked
  · refine h.silent_of_rest ?_
    cases kind <;> exact hnil
  · exact ⟨_, h, Or.inr ⟨kind, rest, rfl, hblocked⟩⟩

theorem silent_of_finished {p : Prog Op Op.Ans Unit} (h : s.threads[i]? = some p)
    (hf : p.Finished) : Silent config s i := ⟨p, h, Or.inl hf.all⟩

theorem Procedure.performing_cons (config : Configuration) (kind : Procedure) (action : Action)
    (rest : List Action) :
    (kind.performing (action :: rest)).call config = action.op ∧
      (kind.performing (action :: rest)).after config = some (kind.performing rest) := by
  cases kind <;> exact ⟨rfl, rfl⟩

/-- **A silent thread stays silent**, whoever moves. -/
theorem Silent.step (h : Silent config s i) (hs : (machine config).StepTo s e s') :
    Silent config s' i ∧ (e.tid = i → wrote e.call = none) := by
  obtain ⟨p, hp, hcases⟩ := h
  by_cases hi : e.tid = i
  · subst hi
    rcases hcases with hall | ⟨kind, rest, rfl, hblocked⟩
    · obtain ⟨k, hk, hself⟩ := hs.self
      obtain rfl := Option.some.inj (hp.symm.trans hk)
      refine ⟨⟨_, hself, Or.inl (hall.resume _)⟩, fun _ => ?_⟩
      obtain ⟨tid, ⟨o, a⟩⟩ := e
      cases o with
      | write d v => exact absurd rfl (hall.1 d v)
      | _ => rfl
    · have hat : AtStage config stop s e.tid (kind.performing rest) := hp
      match rest with
      | [] => exact absurd rfl hblocked.ne_nil
      | action :: rest =>
        obtain ⟨hcall, hafter⟩ := kind.performing_cons config action rest
        obtain ⟨a, env, hec, hexec, hnext⟩ := hat.step_stop hs rfl
        refine ⟨?_, fun _ => hec ▸ hblocked.wrote_eq_none hcall hexec⟩
        rcases hnext with ⟨b, stage', rfl, hb, haft, hat'⟩ | ⟨q, hq, hf⟩
        · obtain rfl : kind.performing rest = stage' := Option.some.inj (hafter.symm.trans haft)
          exact ⟨_, hat', Or.inr ⟨kind, rest, rfl, (hblocked.tail hcall hexec hb).step hs⟩⟩
        · exact silent_of_finished hq hf
  · refine ⟨⟨p, ?_, ?_⟩, fun h => absurd h hi⟩
    · rw [hs.other (Ne.symm hi) (List.getElem?_eq_some_iff.mp hp).1, hp]
    · rcases hcases with hall | ⟨kind, rest, hpq, hblocked⟩
      · exact Or.inl hall
      · exact Or.inr ⟨kind, rest, hpq, hblocked.step hs⟩

/-- **A silent thread writes nothing in any continuation.** -/
theorem Silent.run {t : Trace} (h : Silent config s i) (hr : Run (machine config) s t s') :
    Silent config s' i ∧ ¬ WritesIn t i := by
  induction hr with
  | refl => exact ⟨h, fun ⟨_, he, _⟩ => absurd he List.not_mem_nil⟩
  | tail _ hs ih =>
    obtain ⟨hsil, hw⟩ := ih
    obtain ⟨hsil', hw'⟩ := hsil.step hs
    refine ⟨hsil', ?_⟩
    rintro ⟨e, he, htid, hne⟩
    rcases List.mem_append.mp he with he | he
    · exact hw ⟨e, he, htid, hne⟩
    · obtain rfl := List.mem_singleton.mp he
      exact hne (hw' htid)

end Slonk
