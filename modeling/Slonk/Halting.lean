/-
# Does a stop halt an ignition?

The API documentation promises that an emergency stop halts any ongoing ignition.  The
two procedures meet only at the guard: a stop moves it to `EStopping`, and the ignition notices
when it next asks for a transition.  `perform_actions` never asks.  So an ignition that is in its
sequence goes on writing to the drivers while the stop runs, and after it.

The stop does halt an ignition whose next write cannot happen anyway: there is none left, the
driver lock is poisoned, or the line does not exist (`WriteAhead`).  Those are all the cases.
-/
import Slonk.Continuations

namespace Slonk

open Concurrency

variable {config : Configuration} {kinds : List Procedure} {lines : List Bool}
  {m m' s : System} {e : Event Op.Ans} {i : Nat} {t : Trace}

/-! ## 1. The property -/

/-- An `emergency_stop` invocation's `move_to(EStopping)` succeeds. -/
def Stops (kinds : List Procedure) (e : Event Op.Ans) : Prop :=
  kinds[e.tid]? = some .emergencyStop ∧ moved e.call = some .eStopping

/-- The ignition `i` has moved to `Ignite`, and has not returned. -/
structure Underway (kinds : List Procedure) (t : Trace) (m : System) (i : Nat) : Prop where
  kind : kinds[i]? = some .ignition
  ignited : ∃ e ∈ t, e.tid = i ∧ moved e.call = some .ignite
  running : ∃ p, m.threads[i]? = some p ∧ ¬ p.Finished

/-- **Emergency stop halts ignition**: after a stop, an ignition that was underway performs no
driver write. -/
def StopHaltsIgnition (config : Configuration) (kinds : List Procedure) (s₀ : System)
    (t : Trace) (s : System) : Prop :=
  ∀ t₁ m e m' t₂ i, Moment (machine config) s₀ t s t₁ m e m' t₂ → Stops kinds e →
    Underway kinds t₁ m i → ¬ WritesIn t₂ i

/-- Ignition `i` is in its sequence, and the driver lines allow the next write of it. -/
def WriteAhead (config : Configuration) (m : System) (i : Nat) : Prop :=
  ∃ rest, AtStage config stop m i (.igniting rest) ∧ Writable m.shared.driverLines rest

/-- No stop of the run finds an ignition with a write ahead. -/
def StopsFindNoWriteAhead (config : Configuration) (kinds : List Procedure) (s₀ : System)
    (t : Trace) (s : System) : Prop :=
  ∀ t₁ m e m' t₂ i, Moment (machine config) s₀ t s t₁ m e m' t₂ → Stops kinds e →
    Underway kinds t₁ m i → ¬ WriteAhead config m i

/-! ## 2. One stop -/

/-- An ignition underway is in its sequence, or past it. -/
theorem Underway.stage {shared : Shared}
    (hrun : Run (machine config) (invocations config kinds shared) t m)
    (h : Underway kinds t m i) :
    (∃ rest, AtStage config stop m i (.igniting rest)) ∨
      ∃ stage, AtStage config stop m i stage ∧ stage.rest config = [] := by
  obtain ⟨q, hq, hst⟩ := invocations_status hrun h.kind
  obtain ⟨e, he, htid, hm⟩ := h.ignited
  have hmem : State.ignite ∈ (history i t).filterMap moved :=
    List.mem_filterMap.mpr ⟨e.call, mem_history.mpr ⟨e, he, htid, rfl⟩, hm⟩
  generalize history i t = hist at hst hmem
  generalize hkind : Procedure.ignition = kind at hst
  cases hst with
  | fresh => cases hmem
  | ended hf =>
    obtain ⟨p, hp, hnf⟩ := h.running
    obtain rfl := Option.some.inj (hq.symm.trans hp)
    refine absurd ?_ hnf
    cases q with
    | ret a => trivial
    | panic => trivial
    | op o k => exact hf.elim
  | running stage hmoves =>
    rw [hmoves] at hmem
    cases stage with
    | igniting rest => exact Or.inl ⟨rest, hq⟩
    | postWait => exact Or.inr ⟨_, hq, rfl⟩
    | postDone => exact Or.inr ⟨_, hq, rfl⟩
    | preWait => simp [Stage.moves] at hmem
    | preDone => simp [Stage.moves] at hmem
    | stopping rest => simp [Stage.moves] at hmem

/-- A stop changes neither the driver lines nor the program of an ignition. -/
theorem Stops.frame (hs : (machine config).StepTo m e m') (h : Stops kinds e)
    (hk : kinds[i]? = some .ignition) {p : Prog Op Op.Ans Unit} (hp : m.threads[i]? = some p) :
    m'.shared.driverLines = m.shared.driverLines ∧ m'.threads[i]? = some p := by
  obtain ⟨hstop, hm⟩ := h
  obtain ⟨env, hexec⟩ := StepTo_exec hs
  obtain ⟨hop, -⟩ := moved_of_exec hexec hm
  constructor
  · have := exec_driverLines (o := e.call.op) (fun d v h => by rw [hop] at h; cases h) env m.shared
    rwa [hexec] at this
  · have hne : i ≠ e.tid := by
      rintro rfl
      rw [hk] at hstop
      cases hstop
    rw [hs.other hne (List.getElem?_eq_some_iff.mp hp).1, hp]

/-- **After a stop, an ignition underway writes again in some continuation if and only if it
had a write ahead.** -/
theorem writes_after_stop_iff {shared : Shared}
    (hrun : Run (machine config) (invocations config kinds shared) t m)
    (hs : (machine config).StepTo m e m') (hstop : Stops kinds e) (hu : Underway kinds t m i) :
    (∃ t' s, Run (machine config) m' t' s ∧ WritesIn t' i) ↔ WriteAhead config m i := by
  constructor
  · rintro ⟨t', s, hrun', hw⟩
    by_contra hno
    -- otherwise the ignition is silent from the stop on
    have hsilent : Silent config m' i := by
      rcases hu.stage hrun with ⟨rest, hat⟩ | ⟨stage, hat, hr⟩
      · obtain ⟨hlines, hat'⟩ := hstop.frame hs hu.kind hat
        have hat'' : AtStage config stop m' i (Procedure.ignition.performing rest) := hat'
        refine hat''.silent fun hw' => hno ⟨rest, hat, ?_⟩
        rwa [← hlines]
      · obtain ⟨-, hat'⟩ := hstop.frame hs hu.kind hat
        have hat'' : AtStage config stop m' i stage := hat'
        exact hat''.silent_of_rest (by rw [hr]; rfl)
    exact (hsilent.run hrun').2 hw
  · rintro ⟨rest, hat, hw⟩
    obtain ⟨hlines, hat'⟩ := hstop.frame hs hu.kind hat
    rw [← hlines] at hw
    have hat'' : AtStage config stop m' i (Procedure.ignition.performing rest) := hat'
    exact hat''.reach_write hw

/-! ## 3. Whole runs -/

/-- **Exactly when emergency stop halts ignition.**  In every run whose stops find no ignition
with a write ahead, no ignition that was underway at a stop writes after it; and after a stop,
no continuation has an ignition write that was underway if and only if it had no write ahead. -/
theorem stop_halts_ignition_unless_write_ahead (config : Configuration) (kinds : List Procedure)
    (lines : List Bool) :
    (∀ t s, Run (machine config) (invocations config kinds (Shared.new lines)) t s →
      StopsFindNoWriteAhead config kinds (invocations config kinds (Shared.new lines)) t s →
      StopHaltsIgnition config kinds (invocations config kinds (Shared.new lines)) t s) ∧
    ∀ t m e m' i, Run (machine config) (invocations config kinds (Shared.new lines)) t m →
      (machine config).StepTo m e m' → Stops kinds e → Underway kinds t m i →
      ((∀ t' s, Run (machine config) m' t' s → ¬ WritesIn t' i) ↔ ¬ WriteAhead config m i) := by
  constructor
  · intro t s _ hcond t₁ m e m' t₂ i hd hstop hu hw
    refine hcond t₁ m e m' t₂ i hd hstop hu ?_
    exact (writes_after_stop_iff hd.before hd.step hstop hu).mp ⟨t₂, s, hd.after, hw⟩
  · intro t m e m' i hrun hs hstop hu
    rw [← writes_after_stop_iff hrun hs hstop hu]
    exact ⟨fun h ⟨t', s, hr, hw⟩ => h t' s hr hw, fun h t' s hr hw => h ⟨t', s, hr, hw⟩⟩

/-- The stand whose ignition opens the driver and waits, and whose stop closes it. -/
def openAndWait : Configuration :=
  Configuration.oneDriver [.actuate 0 true, .sleep 1] [.actuate 0 false]

/-- An ignition has opened the driver and waits when a stop closes it.  The ignition has no write
ahead, and writes nothing any more. -/
theorem stop_halts_waiting_ignition :
    ∃ t s t₁ m e m' t₂, Moment (machine openAndWait)
        (invocations openAndWait [.ignition, .emergencyStop] (Shared.new [false])) t s t₁ m e m' t₂ ∧
      Stops [.ignition, .emergencyStop] e ∧ Underway [.ignition, .emergencyStop] t₁ m 0 ∧
      WritesIn t₁ 0 ∧ WritesIn t₂ 1 ∧
      StopHaltsIgnition openAndWait [.ignition, .emergencyStop]
        (invocations openAndWait [.ignition, .emergencyStop] (Shared.new [false])) t s := by
  let M := machine openAndWait
  let kinds := [Procedure.ignition, .emergencyStop]
  let s₀ := invocations openAndWait kinds (Shared.new [false])
  let before := (M.runSchedule ([0, 0, 0, 0].map fun i => (i, Env.fine)) s₀).1
  let m := (M.runSchedule ([0, 0, 0, 0].map fun i => (i, Env.fine)) s₀).2
  have hrun : Run M s₀ before m := run_runSchedule _ s₀
  let e : Event Op.Ans := ⟨1, ⟨.moveTo .eStopping, some (.ok ())⟩⟩
  obtain ⟨m', hs, hm'⟩ : ∃ m', M.StepTo m e m' ∧
      m' = (M.runSchedule [(1, Env.fine)] m).2 := ⟨_, ⟨1, Env.fine, rfl⟩, rfl⟩
  let after := (M.runSchedule ([1, 1, 0, 0].map fun i => (i, Env.fine)) m').1
  let s := (M.runSchedule ([1, 1, 0, 0].map fun i => (i, Env.fine)) m').2
  have hrun' : Run M m' after s := run_runSchedule _ m'
  have hmoment : Moment M s₀ (before ++ e :: after) s before m e m' after := ⟨rfl, hrun, hs, hrun'⟩
  have hwrote : (history 0 before).filterMap wrote = [(0, true)] := by decide +kernel
  have hwrote' : (history 1 after).filterMap wrote = [(0, false)] := by
    subst hm'
    decide +kernel
  -- it is the only stop
  have hbefore : ∀ e' ∈ before, moved e'.call ≠ some .eStopping := by decide +kernel
  have hafter : ∀ e' ∈ after, moved e'.call ≠ some .eStopping := by
    subst hm'
    decide +kernel
  have hcond : StopsFindNoWriteAhead openAndWait kinds s₀ (before ++ e :: after) s := by
    rintro t₁ m₁ e₁ m₂ t₂ i hmoment₁ hstop hu ⟨rest, hat, driverId, value, hhead, -⟩
    obtain ⟨rfl, -, -⟩ := (List.append_cons_inj_of_notMem
      (fun h => hbefore _ h hstop.2) (fun h => hafter _ h hstop.2)).mp hmoment₁.split
    obtain rfl : i = 0 := by
      have hkind := hu.kind
      match i with
      | 0 => rfl
      | 1 => cases hkind
      | i + 2 => cases hkind
    obtain ⟨-, hrest⟩ := invocations_atStage hmoment₁.before hu.kind hat
    rw [hwrote] at hrest
    have hnil : [(0, true)] ++ actuations rest = [(0, true)] ++ [] := hrest
    rw [List.append_cancel_left hnil] at hhead
    cases hhead
  have hwrites : ∀ {i : Nat} {t : Trace} {x}, (history i t).filterMap wrote = [x] → WritesIn t i := by
    intro i t x h
    have hx : x ∈ (history i t).filterMap wrote := h ▸ List.mem_singleton_self x
    obtain ⟨call, hcall, hw⟩ := List.mem_filterMap.mp hx
    obtain ⟨e', he', htid, rfl⟩ := mem_history.mp hcall
    exact ⟨e', he', htid, hw ▸ Option.some_ne_none x⟩
  refine ⟨_, s, before, m, e, m', after, hmoment, ⟨rfl, rfl⟩, ⟨rfl, ?_, _, rfl, id⟩, hwrites hwrote,
    hwrites hwrote', (stop_halts_ignition_unless_write_ahead openAndWait kinds [false]).1 _ s
      (hrun.trans (Run.head hs hrun')) hcond⟩
  exact ⟨⟨0, ⟨.moveTo .ignite, some (.ok ())⟩⟩, List.mem_of_getElem? (i := 2) rfl, rfl, rfl⟩

/-- The stand whose ignition opens the driver and whose stop closes it. -/
def openAndClose : Configuration :=
  Configuration.oneDriver [.actuate 0 true] [.actuate 0 false]

/-- An ignition reaches `Ignite`, a stop closes the driver and returns, and the ignition opens
it. -/
theorem ignition_reopens_driver :
    ∃ t s, Run (machine openAndClose)
        (invocations openAndClose [.ignition, .emergencyStop] (Shared.new [false])) t s ∧
      ¬ StopHaltsIgnition openAndClose [.ignition, .emergencyStop]
        (invocations openAndClose [.ignition, .emergencyStop] (Shared.new [false])) t s := by
  let M := machine openAndClose
  let s₀ := invocations openAndClose [.ignition, .emergencyStop] (Shared.new [false])
  let before := [0, 0, 0].map fun i => (i, Env.fine)
  let m := (M.runSchedule before s₀).2
  have hrun : Run M s₀ (M.runSchedule before s₀).1 m := run_runSchedule before s₀
  obtain ⟨m', hs, hm'⟩ : ∃ m', M.StepTo m ⟨1, ⟨.moveTo .eStopping, some (.ok ())⟩⟩ m' ∧
      m' = (M.runSchedule [(1, Env.fine)] m).2 := ⟨_, ⟨1, Env.fine, rfl⟩, rfl⟩
  let after := [1, 1, 0].map fun i => (i, Env.fine)
  have hrun' : Run M m' (M.runSchedule after m').1 (M.runSchedule after m').2 :=
    run_runSchedule after m'
  refine ⟨_, _, hrun.trans (Run.head hs hrun'), fun hhalts => ?_⟩
  refine hhalts _ m _ m' _ 0 ⟨rfl, hrun, hs, hrun'⟩ ⟨rfl, rfl⟩ ⟨rfl, ?_, ?_⟩ ?_
  · exact ⟨⟨0, ⟨.moveTo .ignite, some (.ok ())⟩⟩, List.mem_of_getElem? (i := 2) rfl, rfl, rfl⟩
  · exact ⟨_, rfl, id⟩
  · have hlast : (0, some (0, true)) ∈
        (M.runSchedule after m').1.map fun e => (e.tid, wrote e.call) := by
      subst hm'
      decide +kernel
    obtain ⟨e, he, heq⟩ := List.mem_map.mp hlast
    obtain ⟨htid, hwrote⟩ := Prod.mk.inj heq
    exact ⟨e, he, htid, by rw [hwrote]; exact Option.some_ne_none _⟩

end Slonk
