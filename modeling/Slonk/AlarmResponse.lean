/-
# An alarm stops the engine

`Alarms.lean` follows a monitor up to the operation that starts a stop, and `StopDelivery.lean` follows
the thread that is started.  Here the two meet in the running server, where any number of monitors,
commands and stops go on at once.

A monitor takes a sample with the guard of its ADC and gives the guard back.  When it has, and the
average of the sensor was out of its range after that sample, it has started a stop in between, and the
stop is carried out (`alarms_carried_out`).

What a thread of the server does on the controller are its `actsOf`, and these are the calls of its
program in `Listeners.lean` (`steps_ofActs`).
-/
import Slonk.StopDelivery
import Slonk.Alarms

namespace Slonk

open Concurrency

/-! ## 1. The calls of a listener -/

/-- The operation of the controller that a call of the server is. -/
def serverAct : Call ServerOp.Ans → Option (Call Act.Ans)
  | ⟨.act a, x⟩ => some ⟨a, x⟩
  | _ => none

/-- What thread `i` has done on the controller. -/
def actsOf (i : Nat) (t : List (Event ServerOp.Ans)) : List (Call Act.Ans) :=
  (history i t).filterMap serverAct

theorem serverAct_eq_some {call : Call ServerOp.Ans} {c : Call Act.Ans}
    (h : serverAct call = some c) : call = ⟨.act c.op, c.ans⟩ := by
  obtain ⟨op, ans⟩ := call
  cases op with
  | act a =>
    obtain rfl := Option.some.inj h
    rfl
  | _ => cases h

/-- **A program of the controller** makes its own calls in the server. -/
theorem steps_ofActs {α : Type} {p : Prog Act Act.Ans α} {h : List (Call ServerOp.Ans)}
    {q : Prog ServerOp ServerOp.Ans α} (hs : Prog.Steps (ofActs p) h q) :
    ∃ q', Prog.Steps p (h.filterMap serverAct) q' := by
  have hone : ∀ a : Act, (.op (.act a) .ret : Prog ServerOp ServerOp.Ans a.Ans).Implements serverAct
      (fun _ _ => True) (.op a .ret) :=
    fun a => .cons_commit (g := id) (fun x => by rw [Option.map_id]; rfl) fun _ _ => rfl
  obtain ⟨q', hq', -⟩ := (Prog.Implements.expand hone p).steps hs fun _ _ => trivial
  exact ⟨q', hq'⟩

/-- A call of a thread is an event of the run. -/
theorem split_of_actsOf {i : Nat} {t : List (Event ServerOp.Ans)} {h₁ h₂ : List (Call Act.Ans)}
    {c : Call Act.Ans} (h : actsOf i t = h₁ ++ c :: h₂) :
    ∃ t₁ e t₂, t = t₁ ++ e :: t₂ ∧ e.tid = i ∧ e.call = ⟨.act c.op, c.ans⟩ ∧ actsOf i t₁ = h₁ := by
  rw [actsOf, List.filterMap_eq_append_iff] at h
  obtain ⟨l₁, l₂, hl, rfl, h⟩ := h
  obtain ⟨l₃, call, l₄, rfl, hnone, hcall, -⟩ := List.filterMap_eq_cons_iff.mp h
  rw [← List.append_assoc] at hl
  obtain ⟨t₁, t₂, rfl, ht₁, ht₂⟩ := List.filterMap_eq_append_iff.mp hl
  obtain ⟨t₃, e, t₄, rfl, hother, he, -⟩ := List.filterMap_eq_cons_iff.mp ht₂
  obtain ⟨htid, rfl⟩ : e.tid = i ∧ e.call = call := by
    split at he
    · exact ⟨‹_›, Option.some.inj he⟩
    · cases he
  refine ⟨t₁ ++ t₃, e, t₄, by simp, htid, serverAct_eq_some hcall, ?_⟩
  have hthird : history i t₃ = [] := List.filterMap_eq_nil_iff.mpr hother
  have hthese : history i (t₁ ++ t₃) = l₁ ++ l₃ := by
    rw [history, List.filterMap_append]
    exact (congrArg₂ (· ++ ·) ht₁ hthird).trans (List.append_nil _)
  rw [actsOf, hthese, List.filterMap_append, List.filterMap_eq_nil_iff.mpr hnone, List.append_nil]

/-- An event of a thread is a call of it. -/
theorem actsOf_split {i : Nat} {t₁ t₂ : List (Event ServerOp.Ans)} {e : Event ServerOp.Ans}
    {c : Call Act.Ans} (hi : e.tid = i) (hc : serverAct e.call = some c) :
    actsOf i (t₁ ++ e :: t₂) = actsOf i t₁ ++ c :: actsOf i t₂ := by
  simp [actsOf, history, hi, hc]

/-! ## 2. The stops of a monitor -/

/-- A stop in the record is a stop that has been started, at its sample. -/
theorem spawnStop_of_mem_stops {size n : Nat} {h : List (Call Act.Ans)}
    (hn : n ∈ (record size h).stops) :
    ∃ h₁ x h₂, h = h₁ ++ ⟨.spawnStop, x⟩ :: h₂ ∧
      (record size h₁).samples.getLast?.map Sample.number = some n := by
  induction h using List.reverseRecOn with
  | nil => cases hn
  | append_singleton h c ih =>
    rw [record_concat] at hn
    have hold : n ∈ (record size h).stops → ∃ h₁ x h₂, h ++ [c] = h₁ ++ ⟨.spawnStop, x⟩ :: h₂ ∧
        (record size h₁).samples.getLast?.map Sample.number = some n := by
      intro hn
      obtain ⟨h₁, x, h₂, rfl, hlast⟩ := ih hn
      exact ⟨h₁, x, h₂ ++ [c], by simp, hlast⟩
    unfold Record.next at hn
    split at hn
    · exact hold hn
    · exact hold hn
    · refine hold ?_
      unfold Record.timed at hn
      split at hn <;> exact hn
    · rename_i x
      rcases List.mem_append.mp hn with hn | hn
      · exact hold hn
      · exact ⟨h, x, [], rfl, Option.mem_toList.mp hn⟩
    all_goals exact hold hn

section Server

variable {F : Type} [F64 F] {config : Configuration} {profile : Profile}
  {fromSlice : List UInt8 → Option Command} {turns : Nat} {lines : List Bool}
  {t : List (Event ServerOp.Ans)} {s : Sys ServerOp ServerOp.Ans Controller}

/-- **A monitor of the server** is a run of `sensor_listen`. -/
theorem steps_of_moment {t₀ t₀' : List (Event ServerOp.Ans)}
    {m₀ m₀' : Sys ServerOp ServerOp.Ans Controller} {e₀ : Event ServerOp.Ans} {groupId : UInt8}
    {logFiles : List LogFile} {rounds : Nat}
    (hmoment : Moment (server F config profile fromSlice)
      (serverOf config profile fromSlice turns lines) t s t₀ m₀ e₀ m₀' t₀')
    (hop : e₀.call.op = .spawnListener (.sensorListen groupId logFiles rounds)) :
    ∃ p, Prog.Steps (sensorListen F config profile groupId logFiles rounds).run
      (actsOf m₀.threads.length t) p := by
  obtain ⟨q, -, hsteps⟩ := history_of_started hmoment (by rw [hop]; rfl)
  obtain ⟨q', hq'⟩ := steps_ofActs hsteps
  obtain ⟨p, hp, -⟩ := hq'.of_discard
  exact ⟨p, hp⟩

/-- Thread `i`, a monitor, has answered an alarm at this sample: it has started a stop, before it took
another sample, and the stop is carried out. -/
def Responds (F : Type) [F64 F] (config : Configuration) (profile : Profile)
    (fromSlice : List UInt8 → Option Command) (turns : Nat) (lines : List Bool)
    (t : List (Event ServerOp.Ans)) (s : Sys ServerOp ServerOp.Ans Controller) (i size : Nat)
    (sample : Sample) : Prop :=
  ∃ t₁ e t₂ m m', Moment (server F config profile fromSlice)
      (serverOf config profile fromSlice turns lines) t s t₁ m e m' t₂ ∧
    e.tid = i ∧ e.call.op = .act .spawnStop ∧
    (record size (actsOf i t₁)).samples.getLast? = some sample ∧
    CarriedOut config t s m.threads.length

/-- **An alarm stops the engine, and nothing else that a monitor sees does.**  Take any run of the
server and any of its monitors.  When a sample of a sensor is over, its average after that sample is
defined, and if that is out of the range of the sensor, the monitor has answered the alarm.  And
where it starts a stop, the average of a sensor is out of its range. -/
theorem alarms_carried_out (F : Type) [F64 F] (config : Configuration) (profile : Profile)
    (fromSlice : List UInt8 → Option Command) (turns : Nat) (lines : List Bool)
    (t : List (Event ServerOp.Ans)) (s : Sys ServerOp ServerOp.Ans Controller)
    (t₀ t₀' : List (Event ServerOp.Ans)) (m₀ m₀' : Sys ServerOp ServerOp.Ans Controller)
    (e₀ : Event ServerOp.Ans) (groupId : UInt8) (logFiles : List LogFile) (rounds : Nat)
    (group : SensorGroup)
    (hmoment : Moment (server F config profile fromSlice)
      (serverOf config profile fromSlice turns lines) t s t₀ m₀ e₀ m₀' t₀')
    (hop : e₀.call.op = .spawnListener (.sensorListen groupId logFiles rounds))
    (hgroup : config.sensorGroups[groupId.toNat]? = some group) :
    (∀ (idx : Fin group.size) before sample after,
      (record group.size (actsOf m₀.threads.length t)).overOf idx = before ++ sample :: after →
      ∃ avg : F, (group.sensor idx).averageAfter profile
          ((before ++ [sample]).map Sample.reading) = some avg ∧
        ((group.sensor idx).outOfBounds avg = true → Responds F config profile fromSlice turns lines
          t s m₀.threads.length group.size sample)) ∧
    ∀ t₁ e t₂, t = t₁ ++ e :: t₂ → e.tid = m₀.threads.length → e.call.op = .act .spawnStop →
      (record group.size (actsOf m₀.threads.length t₁)).Alarming F profile group := by
  obtain ⟨p, hsteps⟩ := steps_of_moment hmoment hop
  have hjudged : Judged F profile group (record group.size (actsOf m₀.threads.length t)) :=
    judged_of_steps hgroup hsteps
  have hrun : Run (server F config profile fromSlice)
      (serverOf config profile fromSlice turns lines) t s := by
    rw [hmoment.split]
    exact hmoment.before.trans (.head hmoment.step hmoment.after)
  constructor
  · intro idx before sample after hsamples
    obtain ⟨rest, hrest⟩ := overOf_initial (record group.size (actsOf m₀.threads.length t)) idx
    have hof : (record group.size (actsOf m₀.threads.length t)).ofSensor idx
        = before ++ sample :: (after ++ rest) := by
      rw [← hrest, hsamples]
      simp
    have hmem : sample ∈ (record group.size (actsOf m₀.threads.length t)).samples := by
      have : sample ∈ (record group.size (actsOf m₀.threads.length t)).ofSensor idx := by
        rw [hof]
        simp
      exact List.mem_of_mem_filter this
    obtain ⟨avg, havg, hstop⟩ := hjudged.stop hof (by rw [hsamples]; simp)
    refine ⟨avg, havg, fun hout => ?_⟩
    obtain ⟨h₁, x, h₂, hacts, hlast⟩ := spawnStop_of_mem_stops (hstop hout)
    obtain ⟨t₁, e, t₂, rfl, htid, hcall, rfl⟩ := split_of_actsOf hacts
    obtain ⟨m, m', hm⟩ := hrun.moment
    have hspawn : e.call.op = .act .spawnStop := by rw [hcall]
    refine ⟨t₁, e, t₂, m, m', hm, htid, hspawn, ?_, carriedOut_of_startsStop hm (Or.inl hspawn)⟩
    -- the sample is told by its number
    obtain ⟨sample', hsample', hnumber⟩ := Option.map_eq_some_iff.mp hlast
    have hget : (record group.size (actsOf m₀.threads.length (t₁ ++ e :: t₂))).samples[sample'.number]?
        = some sample' := by
      refine hjudged.get ?_
      rw [hacts]
      exact (samples_grow _ _ _).mem (List.mem_of_getLast? hsample')
    rw [hnumber, hjudged.get hmem] at hget
    rw [hsample', hget]
  · rintro t₁ e t₂ rfl htid hspawn
    obtain ⟨x, hcall⟩ : ∃ x, serverAct e.call = some ⟨.spawnStop, x⟩ := by
      obtain ⟨tid, ⟨op, x⟩⟩ := e
      cases hspawn
      exact ⟨x, rfl⟩
    rw [actsOf_split htid hcall] at hsteps
    exact permits_of_recorded (recorded_sensorListen hgroup rounds) hsteps

end Server

/-- A stand with one sensor, whose average is that of the last reading, and a valve to be opened. -/
def Configuration.alarmed : Configuration :=
  { Configuration.oneSensor 10 (some 1) with estopSequence := [.actuate 0 true] }

/-- A reading of 200 where 100 is the most, and the valve is opened. -/
theorem high_reading_opens_valve : ∃ t s,
    Run (server ℚ .alarmed .release fun _ => none)
      (serverOf .alarmed .release (fun _ => none) 1 [false]) t s ∧
    ∃ j, (sectionsOf j t).filterMap wrote = [(0, true)] := by
  obtain ⟨t, s, hrun, hp⟩ := exists_guardedRun
    (M := server ℚ .alarmed .release fun _ => none)
    (C := fun _ _ e => writesWell e) (G := fun _ _ e => ¬ FailsWrite e.call)
    (fun _ _ _ => not_failsWrite)
    ([(0, ServerWorld.fine)] ++
      List.replicate 19 (1, { ServerWorld.fine with adcResult := .ok 200 }) ++
      List.replicate 9 (2, ServerWorld.fine))
    (s := serverOf .alarmed .release (fun _ => none) 1 [false])
    (P := fun t s => (t[0]?.any fun (e : Event ServerOp.Ans) =>
        decide (e.call.op = .spawnListener (.sensorListen 0 [⟨0, 0⟩] 1))) &&
      decide (((record 1 (actsOf 1 t)).overOf 0).map Sample.reading = [200]) &&
      s.threads.tail.all fun q => q.pending.isNone) (by decide +kernel)
  simp only [Bool.and_eq_true, Option.any_eq_true, decide_eq_true_eq, List.all_eq_true,
    Option.isNone_iff_eq_none, Prog.pending_eq_none] at hp
  obtain ⟨⟨⟨e₀, he₀, hspawn⟩, hread⟩, hfinished⟩ := hp
  obtain ⟨t₀', rfl⟩ : ∃ t₀', t = e₀ :: t₀' := by
    cases t with
    | nil => cases he₀
    | cons e t => exact ⟨t, by rw [Option.some.inj he₀]⟩
  obtain ⟨m₀, m₀', hmoment⟩ := Run.moment (t := []) hrun.run
  have hthread : m₀.threads.length = 1 := by rw [hmoment.before.nil_inv]; rfl
  obtain ⟨sample, hsample, hreading⟩ := List.map_eq_singleton_iff.mp hread
  have halarm := (alarms_carried_out ℚ .alarmed .release (fun _ => none) 1 [false] _ s [] t₀' m₀ m₀'
    e₀ 0 [⟨0, 0⟩] 1 (.oneSensor 10 (some 1)) hmoment hspawn rfl).1 SensorGroup.theSensor []
    sample []
  rw [hthread] at halarm
  obtain ⟨avg, havg, hanswers⟩ := halarm hsample
  obtain rfl : avg = 200 := by
    simp only [List.nil_append, List.map_singleton, hreading] at havg
    exact Option.some.inj (havg.symm.trans (by decide +kernel))
  obtain ⟨t₁, e, t₂, m, m', hm, htid, -, -, q, hq, hwrites⟩ := hanswers (by decide +kernel)
  have hlt : 0 < m.threads.length := Nat.pos_of_ne_zero fun h => by
    have := hm.step.tid_lt
    omega
  have hmem : q ∈ s.threads.tail := by
    refine List.mem_of_getElem? (i := m.threads.length - 1) ?_
    rw [List.getElem?_tail, Nat.sub_add_cancel hlt, hq]
  refine ⟨_, s, hrun.run, m.threads.length, ?_⟩
  rcases hwrites (hfinished q hmem) with h | ⟨call, hcall, hf⟩
  · exact h
  · obtain ⟨e', he', -, rfl⟩ := mem_history.mp hcall
    exact absurd hf (hrun.forall_mem (fun _ _ _ _ h _ => h) e' he')

end Slonk
