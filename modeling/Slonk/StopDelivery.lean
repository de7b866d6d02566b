/-
# Every emergency stop is carried out

A stop is asked for by the dashboard, or by a sensor out of its range; either way a thread is started
for it.  What can keep that thread from its sequence?

* Not the guard.  `move_to(EStopping)` is refused from Quit only, where the guard never is, or by a
  poisoned lock, and nobody panics under that one (`eStopping_granted`).
* Not another procedure: nothing in `perform_actions` looks at the guard.
* Not the logs, on a host that provides what they need.  The command log is not poisoned there either, and
  a writer that fails is worth a warning.  But `handle_command` prints before it executes anything: with
  no terminal to print to, the thread of a stop that the dashboard asks for panics with nothing written.

What is left is a write to a driver that fails.  So on such a host, when the thread of a stop is over, it
has made every write of the stop sequence, in order, or one of its own writes has failed
(`stops_carried_out`).
-/
import Slonk.Quiescence

namespace Slonk

open Concurrency

variable {config : Configuration}

/-! ## 1. What a stop writes -/

/-- The answers that let a stop go on. -/
def LetsStop : (o : Op) → o.Ans → Prop
  | .moveTo .eStopping, r => r = .ok ()
  | .write _ _, r => r = .ok ()
  | .logCommand _ _ _, r => r ≠ .error .poisoned
  | _, _ => True

/-- The writes of a thread so far.  Nothing is forbidden, but it may not give up. -/
def actuating : Protocol Op Op.Ans (List (UInt8 × Bool)) where
  permits _ _ := True
  aborts _ := False
  next writes c := writes ++ (wrote c).toList

theorem actuating_after (calls : List (Call Op.Ans)) : ∀ writes : List (UInt8 × Bool),
    actuating.after writes calls = writes ++ calls.filterMap wrote := by
  induction calls with
  | nil => simp
  | cons c calls ih =>
    intro writes
    rw [Protocol.after_cons, ih]
    cases h : wrote c <;> simp [actuating, h]

/-- Answered so, the program returns having made these writes. -/
abbrev Writes {α : Type} (before : List (UInt8 × Bool)) (p : Prog Op Op.Ans α)
    (Q : α → List (UInt8 × Bool) → Prop) : Prop :=
  p.Follows actuating LetsStop before Q

theorem writes_performActions (before : List (UInt8 × Bool)) : ∀ actions : List Action,
    Writes before (performActions actions).run fun r writes =>
      r = .ok () ∧ writes = before ++ actuations actions
  | [] => ⟨rfl, (List.append_nil before).symm⟩
  | .actuate driverId value :: actions => by
    refine Prog.Follows.bind (f := thenRun _) ⟨trivial, ?_⟩
    rintro r rfl
    refine (writes_performActions (before ++ [(driverId, value)]) actions).mono ?_
    rintro r writes ⟨rfl, rfl⟩
    exact ⟨rfl, by simp⟩
  | .sleep duration :: actions => by
    refine Prog.Follows.bind (f := thenRun _) ⟨trivial, fun _ _ => ?_⟩
    refine (writes_performActions (before ++ []) actions).mono ?_
    rintro r writes ⟨rfl, rfl⟩
    exact ⟨rfl, by simp⟩

/-- **A stop** that is let go on makes every write of its sequence. -/
theorem writes_emergencyStop : Writes [] (emergencyStop config).run fun _ writes =>
    writes = actuations config.estopSequence := by
  refine Prog.Follows.bind (f := thenRun _) ⟨trivial, ?_⟩
  rintro r rfl
  refine Prog.Follows.bind (f := thenRun _)
    ((writes_performActions [] config.estopSequence).mono ?_)
  rintro r writes ⟨rfl, rfl⟩
  refine ⟨trivial, fun a _ => ?_⟩
  have hnone : actuating.next ([] ++ actuations config.estopSequence) ⟨.moveTo .standby, some a⟩
      = actuations config.estopSequence := by simp [actuating, wrote]
  cases a with
  | ok u => exact hnone
  | error e => exact hnone

/-- Writing a line to the command log goes through, with no write to a driver. -/
theorem writes_logCommand (before : List (UInt8 × Bool)) (time : Nat) (tag : LogTag)
    (cmd : Command) : Writes before (logCommand time tag cmd).run fun r writes =>
      r = .ok () ∧ writes = before := by
  refine ⟨trivial, fun r hr => ?_⟩
  have hnone : ∀ r, actuating.next before ⟨.logCommand time tag cmd, some r⟩ = before :=
    fun _ => List.append_nil before
  match r with
  | .ok () => exact ⟨rfl, hnone _⟩
  | .error .poisoned => exact absurd rfl hr
  | .error .io => exact ⟨trivial, fun _ _ => ⟨rfl, by simp [actuating, wrote]⟩⟩

/-- **The thread of the command `EmergencyStop`.** -/
theorem writes_commandThread : Writes [] (commandThread config .emergencyStop) fun _ writes =>
    writes = actuations config.estopSequence := by
  have hprologue : Writes [] (prologue .emergencyStop).run fun r writes =>
      r = .ok () ∧ writes = [] :=
    ⟨trivial, fun time _ => ⟨trivial, fun _ _ => writes_logCommand [] time .request _⟩⟩
  have hepilogue : ∀ before, Writes before (epilogue .emergencyStop).run fun r writes =>
      r = .ok () ∧ writes = before := by
    refine fun before => ⟨trivial, fun time _ => ?_⟩
    refine Prog.Follows.mono (writes_logCommand _ time .finish _) ?_
    rintro r writes ⟨rfl, rfl⟩
    exact ⟨rfl, List.append_nil before⟩
  have hlast : ∀ before : List (UInt8 × Bool), Writes before
      (.op (.userLog .debug (.text "Finished executing command.")) fun _ => .ret () :
        Prog Op Op.Ans Unit) fun _ writes => writes = before :=
    fun before => ⟨trivial, fun _ _ => List.append_nil before⟩
  refine Prog.Follows.bind (Prog.Follows.mono (Q := fun _ writes =>
    writes = actuations config.estopSequence) ?_ fun r writes h => h ▸ hlast writes)
  rw [handleCommand_eq]
  refine Prog.Follows.bind (f := thenRun _) (hprologue.mono ?_)
  rintro r writes ⟨rfl, rfl⟩
  refine Prog.Follows.bind (f := thenRun _) (Prog.Follows.mono writes_emergencyStop ?_)
  rintro (e | u) writes hwrites
  · exact hwrites
  · refine (hepilogue writes).mono ?_
    rintro r writes' ⟨-, rfl⟩
    exact hwrites

/-! ## 2. Runs -/

section Server

variable {F : Type} [F64 F] {profile : Profile} {fromSlice : List UInt8 → Option Command}
  {turns : Nat} {lines : List Bool} {t : List (Event ServerOp.Ans)}
  {s : Sys ServerOp ServerOp.Ans Controller}

/-- **Nobody refuses an emergency stop.** -/
theorem eStopping_granted (hrun : Run (server F config profile fromSlice)
      (serverOf config profile fromSlice turns lines) t s) {e : Event ServerOp.Ans} (he : e ∈ t)
    {x : Option (Except StateError Unit)} (hcall : e.call = ⟨.act (.op (.moveTo .eStopping)), x⟩) :
    x = some (.ok ()) := by
  obtain ⟨t₁, t₂, rfl⟩ := List.append_of_mem he
  obtain ⟨m, m', hmoment⟩ := hrun.moment
  obtain ⟨w, hans, -⟩ := hmoment.step.exec
  have hpoisoned : m.shared.shared.state.poisoned = false :=
    (unharmed_of_run hmoment.before).1.1 .state trivial
  have hvalid := (validTransition_eStopping _).mpr (not_quit_of_run hmoment.before)
  obtain ⟨tid, ⟨op, ans⟩⟩ := e
  cases hcall
  have hans' : x = some (m.shared.shared.state.moveTo .eStopping).1 := hans
  rw [hans', Guard.moveTo_of_valid hpoisoned hvalid]

/-- **What lets a stop go on**: every answer of a run, but those of writes that fail. -/
theorem letsStop_of_run (hrun : Run (server F config profile fromSlice)
      (serverOf config profile fromSlice turns lines) t s) {i : Nat}
    (hwrites : ∀ call ∈ history i t, ¬ FailsWrite call) :
    ∀ c ∈ sectionsOf i t, ∀ a, c.ans = some a → LetsStop c.op a := by
  rintro ⟨o, x⟩ hc (a : o.Ans) (rfl : x = some a)
  obtain ⟨e, he, hi, hcall⟩ := mem_sectionsOf.mp hc
  cases o with
  | moveTo newState =>
    cases newState with
    | eStopping => exact Option.some.inj (eStopping_granted hrun he hcall)
    | _ => trivial
  | write driverId value =>
    by_contra hne
    exact hwrites e.call (mem_history.mpr ⟨e, he, hi, rfl⟩)
      ⟨driverId, value, _, hcall, fun h => hne (Option.some.inj h)⟩
  | logCommand time tag cmd =>
    rintro rfl
    obtain ⟨t₁, t₂, rfl⟩ := List.append_of_mem he
    obtain ⟨m, m', hmoment⟩ := hrun.moment
    obtain ⟨w, hans, -⟩ := hmoment.step.exec
    have hlog : m.shared.shared.cmdLog.poisoned = false :=
      (unharmed_of_run hmoment.before).1.1 .cmdLog trivial
    obtain ⟨tid, ⟨op, ans⟩⟩ := e
    cases hcall
    exact logged_exec hlog (show _ = some _ from hans.symm) rfl
  | _ => trivial

/-- What panics in a critical section is a write. -/
theorem write_of_panic (hrun : Run (server F config profile fromSlice)
      (serverOf config profile fromSlice turns lines) t s) {e : Event ServerOp.Ans} (he : e ∈ t)
    {o : Op} (hcall : e.call = ⟨.act (.op o), none⟩) : ∃ driverId value, o = .write driverId value := by
  obtain ⟨t₁, t₂, rfl⟩ := List.append_of_mem he
  obtain ⟨m, m', hmoment⟩ := hrun.moment
  obtain ⟨w, hans, -⟩ := hmoment.step.exec
  obtain ⟨tid, ⟨op, ans⟩⟩ := e
  cases hcall
  rcases panics_of_unharmed (unharmed_of_run hmoment.before).1.1 (a := .op o) hans.symm with
    ⟨_, h⟩ | ⟨driverId, value, h, -⟩
  · cases h
  · exact ⟨driverId, value, Act.op.inj h⟩

/-- The event starts the thread of a stop. -/
def StartsStop (o : ServerOp) : Prop :=
  o = .act .spawnStop ∨ o = .act (.op (.spawn .emergencyStop))

/-- What that thread does, over the critical sections. -/
theorem writes_of_startsStop (F : Type) [F64 F] (config : Configuration) (profile : Profile)
    (fromSlice : List UInt8 → Option Command) {o : ServerOp} (h : StartsStop o) :
    ∃ p' p, (server F config profile fromSlice).fork o = some p' ∧ Commanded config p' p ∧
      Writes [] p fun _ writes => writes = actuations config.estopSequence := by
  rcases h with rfl | rfl
  · exact ⟨_, _, rfl, .stop, writes_emergencyStop.discard⟩
  · exact ⟨_, _, rfl, .command .emergencyStop, writes_commandThread⟩

/-- **The stop that thread `j` was started for is carried out**: when the thread is over, it has made
every write of the stop sequence, in order and once each, or one of its own writes has failed. -/
def CarriedOut (config : Configuration) (t : List (Event ServerOp.Ans))
    (s : Sys ServerOp ServerOp.Ans Controller) (j : Nat) : Prop :=
  ∃ q, s.threads[j]? = some q ∧ (q.Finished →
    (sectionsOf j t).filterMap wrote = actuations config.estopSequence ∨
      ∃ call ∈ history j t, FailsWrite call)

/-- **A thread that is started** has all its calls still to come. -/
theorem history_of_started {m m' : Sys ServerOp ServerOp.Ans Controller}
    {t₁ t₂ : List (Event ServerOp.Ans)} {e : Event ServerOp.Ans}
    {p : Prog ServerOp ServerOp.Ans Unit}
    (hmoment : Moment (server F config profile fromSlice)
      (serverOf config profile fromSlice turns lines) t s t₁ m e m' t₂)
    (hfork : (server F config profile fromSlice).fork e.call.op = some p) :
    ∃ q, s.threads[m.threads.length]? = some q ∧ Prog.Steps p (history m.threads.length t) q := by
  have hrun : Run (server F config profile fromSlice) (serverOf config profile fromSlice turns lines)
      t s := by
    rw [hmoment.split]
    exact hmoment.before.trans (Run.head hmoment.step hmoment.after)
  have hstarted : StartedBy (server F config profile fromSlice)
      (serverOf config profile fromSlice turns lines) t m.threads.length t₁ e := by
    refine ⟨⟨t₂, hmoment.split⟩, m, m', hmoment.before, hmoment.step, rfl, ?_⟩
    rw [hmoment.step.length, hfork]
    exact Nat.lt_succ_self _
  exact hstarted.steps hrun hfork

theorem carriedOut_of_startsStop {m m' : Sys ServerOp ServerOp.Ans Controller}
    {t₁ t₂ : List (Event ServerOp.Ans)} {e : Event ServerOp.Ans}
    (hmoment : Moment (server F config profile fromSlice)
      (serverOf config profile fromSlice turns lines) t s t₁ m e m' t₂)
    (hstarts : StartsStop e.call.op) : CarriedOut config t s m.threads.length := by
  obtain ⟨p', p, hfork, hp, hwrites⟩ := writes_of_startsStop F config profile fromSlice hstarts
  have hrun : Run (server F config profile fromSlice)
      (serverOf config profile fromSlice turns lines) t s := by
    rw [hmoment.split]
    exact hmoment.before.trans (.head hmoment.step hmoment.after)
  obtain ⟨q, hq, hsteps⟩ := history_of_started hmoment hfork
  refine ⟨q, hq, fun hfinished => ?_⟩
  by_cases hfails : ∃ call ∈ history m.threads.length t, FailsWrite call
  · exact Or.inr hfails
  push Not at hfails
  refine Or.inl ?_
  obtain ⟨q₀, hsteps₀, hi⟩ := hp.implements.steps hsteps fun c hc => by
    obtain ⟨e', he', -, rfl⟩ := mem_history.mp hc
    exact orderly_of_run hrun e' he'
  rcases hwrites.steps hsteps₀ (letsStop_of_run hrun hfails) with ⟨-, c, hc, hnone⟩ | hfollows
  · -- a panic would be that of a write
    obtain ⟨e', he', htid, hcall⟩ := mem_sectionsOf.mp hc
    obtain ⟨o, x⟩ := c
    obtain rfl : x = none := hnone
    obtain ⟨driverId, value, rfl⟩ := write_of_panic hrun he' hcall
    exact absurd ⟨driverId, value, none, hcall, by simp⟩
      (hfails e'.call (mem_history.mpr ⟨e', he', htid, rfl⟩))
  · rw [actuating_after, List.nil_append] at hfollows
    cases q with
    | op o k => exact hfinished.elim
    | ret a =>
      obtain rfl := hi
      exact hfollows
    | panic =>
      obtain rfl := hi
      exact hfollows.elim

/-- The thread of a stop takes no ADC. -/
theorem Commanded.takes_no_adc {p' : Prog ServerOp ServerOp.Ans Unit} {p : Prog Op Op.Ans Unit}
    (h : Commanded config p' p) (adcs : Nat) : p'.All fun o => o.pastAdcs adcs = false := by
  have hexpand : ∀ {α : Type} (q : Prog Op Op.Ans α),
      (ofActs (q.expand critical)).All fun o => o.pastAdcs adcs = false := by
    intro α q
    have hall : (q.expand critical).All fun a => (ServerOp.act a).pastAdcs adcs = false := by
      refine (Prog.All.of_forall (P := fun _ => True) (fun _ => trivial) q).expand
        fun o _ => critical_all (fun a ha => ?_) rfl
      unfold ServerOp.pastAdcs
      split
      · rename_i h
        cases h
        exact ha.elim
      · rfl
    exact hall.expand fun a ha => ⟨ha, fun _ => trivial⟩
  cases h with
  | command cmd => exact hexpand _
  | stop => exact hexpand _

end Server

/-! ## 3. The host -/

section Host

variable {F : Type} [F64 F] {profile : Profile} {fromSlice : List UInt8 → Option Command}
  {turns adcs : Nat} {lines : List Bool}

/-- **Every emergency stop is carried out.**  In every run of the server on a host that provides what it
needs, whoever asks for a stop, and whatever else is going on: when the thread started for it is over, it
has made every write of the stop sequence, in order and once each, or one of its own writes has failed. -/
theorem stops_carried_out (F : Type) [F64 F] (config : Configuration) (profile : Profile)
    (fromSlice : List UInt8 → Option Command) (turns adcs : Nat) (lines : List Bool)
    (t : List (Event HostOp.Ans)) (s : Sys HostOp HostOp.Ans Controller)
    (t₁ t₂ : List (Event HostOp.Ans)) (m m' : Sys HostOp HostOp.Ans Controller)
    (e : Event HostOp.Ans)
    (hmoment : Moment (hosted F config profile fromSlice adcs)
      (hostedOf config profile fromSlice turns lines) t s t₁ m e m' t₂)
    (hprovided : Provided t) (o : ServerOp) (hop : e.call.op = .call o) (hstarts : StartsStop o) :
    ∃ q, s.threads[m.threads.length]? = some q ∧ (q.Finished →
      (sectionsOf m.threads.length (called t)).filterMap wrote = actuations config.estopSequence ∨
        ∃ call ∈ history m.threads.length (called t), FailsWrite call) := by
  obtain ⟨tid, ⟨_, x⟩⟩ := e
  obtain rfl : _ = Asked.call o := hop
  obtain ⟨s', n, n', hs, hn, hserver⟩ := server_moment_of_hosted hmoment hprovided rfl
  rw [hn.length]
  obtain ⟨p, hp, hcarried⟩ := carriedOut_of_startsStop hserver hstarts
  have hlt : n.threads.length < s.threads.length := by
    rw [hs.length]
    exact (List.getElem?_eq_some_iff.mp hp).1
  refine ⟨_, List.getElem?_eq_getElem hlt, fun hfinished => ?_⟩
  obtain ⟨p', hp', hasks⟩ := hs.threads _ _ (List.getElem?_eq_getElem hlt)
  obtain rfl := Option.some.inj (hp.symm.trans hp')
  rcases hasks.of_finished hfinished with hover | ⟨o', k, rfl, hpast⟩
  · exact hcarried hover
  · -- it stands before an ADC, but the thread of a stop takes none
    obtain ⟨p₀, _, hfork, hp₀, -⟩ := writes_of_startsStop F config profile fromSlice hstarts
    obtain ⟨q, hq, hsteps⟩ := history_of_started hserver hfork
    obtain rfl := Option.some.inj (hp.symm.trans hq)
    obtain ⟨-, hnone, -⟩ := hsteps.all (hp₀.takes_no_adc adcs)
    rw [hpast] at hnone
    cases hnone

end Host

/-- A client asks for a stop, and all threads run to their ends: the valve is opened. -/
theorem requested_stop_carried_out : ∃ t s,
    Run (hosted ℚ (.oneDriver [] [.actuate 0 true]) .release (fun _ => some .emergencyStop) 0)
      (hostedOf (.oneDriver [] [.actuate 0 true]) .release (fun _ => some .emergencyStop) 1 [false])
      t s ∧ ∃ i, (sectionsOf i (called t)).filterMap wrote = [(0, true)] := by
  obtain ⟨t, s, hrun, hp⟩ := exists_guardedRun
    (M := hosted ℚ (.oneDriver [] [.actuate 0 true]) .release (fun _ => some .emergencyStop) 0)
    (C := fun _ _ e => provides e && e.called.all writesWell)
    (G := fun _ _ e => provides e = true ∧ e.called.all writesWell = true)
    (fun _ _ _ h => Bool.and_eq_true_iff.mp h)
    -- each operation is asked for and performed
    (List.replicate 86 (0, { HostWorld.fine with incoming := .ok (.ofBytes [123, 125]) }) ++
      List.replicate 34 (1, HostWorld.fine) ++ List.replicate 22 (2, HostWorld.fine) ++
      List.replicate 46 (3, HostWorld.fine))
    (s := hostedOf (.oneDriver [] [.actuate 0 true]) .release (fun _ => some .emergencyStop) 1
      [false])
    (P := fun t s => (t[73]?.any fun (e : Event HostOp.Ans) =>
        decide (e.call.op = .call (.act (.op (.spawn .emergencyStop))))) &&
      s.threads.all fun q => q.pending.isNone) (by decide +kernel)
  simp only [Bool.and_eq_true, Option.any_eq_true, decide_eq_true_eq, List.all_eq_true,
    Option.isNone_iff_eq_none, Prog.pending_eq_none] at hp
  obtain ⟨⟨e, he, hspawn⟩, hfinished⟩ := hp
  obtain ⟨t₁, t₂, rfl⟩ := List.append_of_mem (List.mem_of_getElem? he)
  obtain ⟨m, m', hmoment⟩ := hrun.run.moment
  obtain ⟨q, hq, hwrites⟩ := stops_carried_out ℚ (.oneDriver [] [.actuate 0 true]) .release
    (fun _ => some .emergencyStop) 1 0 [false] _ s t₁ t₂ m m' e hmoment
    (provided_of_guardedRun hrun fun _ _ _ h => h.1) _ hspawn (Or.inr rfl)
  refine ⟨_, s, hrun.run, m.threads.length, ?_⟩
  rcases hwrites (hfinished q (List.mem_of_getElem? hq)) with h | ⟨call, hcall, hf⟩
  · exact h
  · obtain ⟨⟨tid, ⟨o, x⟩⟩, he', -, rfl⟩ := mem_history.mp hcall
    have hwell := hrun.forall_mem (P := fun e => e.called.all writesWell = true)
      (fun _ _ _ _ h _ => h.2) _ (mem_called.mp he')
    exact absurd hf (not_failsWrite hwell)

end Slonk
