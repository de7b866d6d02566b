/-
# Nothing happens unasked

The guard and the driver lines are shared by all threads of the server.  What can change them?

Only a transition or a driver write can, and each of those that any thread ever attempts is accounted
for:

* a client that has been accepted has asked for it (`Ordered`): the thread executes a command that the
  client has sent, it has logged the request, it has done since what comes before in the command, and
  this comes next; or
* a sensor has asked for it (`Alarmed`): the thread was started as a stop, by a monitor that had just
  found the average of one of its sensors out of range, and this comes next in the stop.

`AuditTrail.lean` has this of each program: what may be done is what comes next in the command in hand
(`Hand.Due`).  What is in hand has been requested by the thread itself, or is the stop it was started as
(`doneSince_or`), whatever the other threads do.
-/
import Slonk.CommandLog

namespace Slonk

open Concurrency

section Statements

variable (F : Type) [F64 F] (config : Configuration) (profile : Profile)
  (fromSlice : List UInt8 → Option Command) (turns : Nat) (lines : List Bool)
  (t : List (Event ServerOp.Ans))

/-- Thread `i` is a monitor, and the average of a sensor of its group is out of its range. -/
def Alarms (i : Nat) : Prop :=
  ∃ groupId logFiles rounds group t₁ e, StartedBy (server F config profile fromSlice)
      (serverOf config profile fromSlice turns lines) t i t₁ e ∧
    e.call.op = .spawnListener (.sensorListen groupId logFiles rounds) ∧
    config.sensorGroups[groupId.toNat]? = some group ∧
    (record group.size (actsOf i t)).Alarming F profile group

/-- **A sensor has asked for it**: thread `i` was started as a stop, at an alarm, and this comes next. -/
def Alarmed (i : Nat) (d : Deed) : Prop :=
  ∃ t₁ e, StartedBy (server F config profile fromSlice)
      (serverOf config profile fromSlice turns lines) t i t₁ e ∧
    e.call.op = .act .spawnStop ∧ Alarms F config profile fromSlice turns lines t₁ e.tid ∧
    (sectionsOf i t).filterMap deed ++ [d] <+: Command.emergencyStop.deeds config

/-- **A client has asked for it**: thread `i` executes a command that a client has sent.  The thread has
written the request, and it stands in the command log, unless the writer has failed; these deeds have
been done since; and this comes next. -/
structure Ordered (c : Controller) (i : Nat) (d : Deed) (cmd : Command) (done : List Deed) : Prop where
  sent : Sent profile fromSlice t cmd
  thread : Executes F config profile fromSlice turns lines t i cmd
  logged : ∃ time, (⟨i, ⟨.act (.op (.logCommand time .request cmd)), some (.ok ())⟩⟩ ∈ t ∧
      StandsIn c.shared.cmdLog.val (commandLine time .request cmd)) ∨
    ⟨i, ⟨.act (.op (.logCommand time .request cmd)), some (.error .io)⟩⟩ ∈ t
  since : DoneSince cmd done (sectionsOf i t)
  next : done ++ [d] <+: cmd.deeds config

end Statements

section Runs

variable {F : Type} [F64 F] {config : Configuration} {profile : Profile}
  {fromSlice : List UInt8 → Option Command} {turns : Nat} {lines : List Bool}
  {t t₁ t₂ : List (Event ServerOp.Ans)} {s m m' : Sys ServerOp ServerOp.Ans Controller}
  {e : Event ServerOp.Ans} {i : Nat} {cmd : Command} {d : Deed}

/-! ## 1. What changes the guard and the driver lines -/

/-- The other operations leave them alone. -/
theorem exec_steady {o : ServerOp} (h : ∀ o' d, o = .act (.op o') → o'.deed ≠ some d) (w : ServerWorld)
    (c : Controller) : (o.exec w c).2.shared.state.state = c.shared.state.state ∧
      (o.exec w c).2.shared.driverLines.val = c.shared.driverLines.val := by
  cases o with
  | act a =>
    cases a with
    | op o =>
      cases o with
      | moveTo newState => exact absurd rfl (h _ _ rfl)
      | write driverId value => exact absurd rfl (h _ _ rfl)
      | userLog level message =>
        simp only [ServerOp.exec, Act.exec, exec]
        split
        · exact ⟨rfl, rfl⟩
        · split <;> exact ⟨rfl, rfl⟩
      | logCommand time tag cmd =>
        simp only [ServerOp.exec, Act.exec, exec]
        split
        · exact ⟨rfl, rfl⟩
        · split <;> exact ⟨rfl, rfl⟩
      | _ => exact ⟨rfl, rfl⟩
    | unwind guards =>
      refine ⟨Controller.foldl_poison (f := fun c => c.shared.state.state) ?_ _ _,
        Controller.foldl_poison (f := fun c => c.shared.driverLines.val) ?_ _ _⟩
      · rintro c (_ | _) <;> rfl
      · rintro c (_ | _) <;> rfl
    | readLine driverIdx =>
      simp only [ServerOp.exec, Act.exec]
      split <;> exact ⟨rfl, rfl⟩
    | heartbeat value =>
      simp only [ServerOp.exec, Act.exec]
      split <;> exact ⟨rfl, rfl⟩
    | _ => exact ⟨rfl, rfl⟩
  | _ => exact ⟨rfl, rfl⟩

/-! ## 2. Who starts a stop without a command -/

/-- What a program of the controller does next, in the server. -/
theorem next_of_all {P : Act → Prop} {p : Prog Act Act.Ans Unit} {h : List (Call ServerOp.Ans)}
    {a : Act} {k : a.Ans → Prog ServerOp ServerOp.Ans Unit} (hp : p.All P)
    (hs : Prog.Steps (ofActs p) h (.op (.act a) k)) : P a := by
  have hall : (ofActs p).All fun o => ∀ a, o = .act a → P a := by
    refine hp.expand fun a ha => ⟨?_, fun _ => trivial⟩
    rintro a' ⟨⟩
    exact ha
  exact (hs.all hall).2.1 a rfl

/-- The group of a monitor. -/
theorem group_of_monitor {groupId : UInt8} {logFiles : List LogFile} {rounds : Nat}
    (h : Thread.sensorListen groupId logFiles rounds ∈ listeners config turns) :
    ∃ group, config.sensorGroups[groupId.toNat]? = some group := by
  rcases List.mem_append.mp h with h | h
  · obtain ⟨⟨group, g⟩, hg, heq⟩ := List.mem_map.mp h
    obtain ⟨rfl, -, -⟩ := Thread.sensorListen.inj heq
    have hlt := (List.getElem?_eq_some_iff.mp (List.mem_zipIdx_iff_getElem?.mp hg)).1
    have hle : (UInt8.ofNat g).toNat ≤ g := by
      rw [UInt8.toNat_ofNat']
      exact Nat.mod_le _ _
    exact ⟨_, List.getElem?_eq_getElem (lt_of_le_of_lt hle hlt)⟩
  · simp at h

/-- **Only a monitor does**, and only at an alarm. -/
theorem alarms_of_spawnStop (hrun : Run (server F config profile fromSlice)
      (serverOf config profile fromSlice turns lines) t s)
    {k : Act.Ans .spawnStop → Prog ServerOp ServerOp.Ans Unit}
    (hk : s.threads[i]? = some (.op (.act .spawnStop) k)) :
    Alarms F config profile fromSlice turns lines t i := by
  obtain ⟨p, horigin, hsteps⟩ := origin_of_run hrun hk
  cases horigin with
  | closure first =>
    subst first
    exact absurd rfl (permits_of_steps (closure_asking.discard []) hsteps).1
  | command cmd t₁ e started op => exact absurd rfl (next_of_all (expand_not_spawnStop _) hsteps)
  | stop t₁ e started op => exact absurd rfl (next_of_all (expand_not_spawnStop _) hsteps)
  | listener thread t₁ e started op mem =>
    rcases next_of_all (listener_unconcerned F mem) hsteps with
      h | ⟨-, groupId, logFiles, rounds, rfl⟩
    · exact h.elim
    · obtain ⟨group, hgroup⟩ := group_of_monitor mem
      refine ⟨groupId, logFiles, rounds, group, t₁, e, started, op, hgroup, ?_⟩
      obtain ⟨q, hq⟩ := steps_ofActs (hsteps.tail (some ()))
      obtain ⟨p, hp, -⟩ := hq.of_discard
      have hp' : Prog.Steps (sensorListen F config profile groupId logFiles rounds).run
          (actsOf i t ++ ⟨.spawnStop, some ()⟩ :: []) p := by
        rw [List.filterMap_append] at hp
        exact hp
      exact permits_of_recorded (recorded_sensorListen hgroup rounds) hp'

/-! ## 3. What is in hand -/

/-- A thread that has requested a command was asked to. -/
theorem ordered_of_doneSince (hrun : Run (server F config profile fromSlice)
      (serverOf config profile fromSlice turns lines) t s) {done : List Deed}
    (hdone : DoneSince cmd done (sectionsOf i t)) (hnext : done ++ [d] <+: cmd.deeds config) :
    Ordered F config profile fromSlice turns lines t s.shared i d cmd done := by
  obtain ⟨before, time, answer, during, hsections, hanswer, -⟩ := id hdone
  have hmem : ⟨.logCommand time .request cmd, some answer⟩ ∈ sectionsOf i t := by
    rw [hsections]
    simp
  obtain ⟨e, he, rfl, hcall⟩ := mem_sectionsOf.mp hmem
  obtain ⟨t₁, t₂, rfl⟩ := List.append_of_mem he
  have htruthful := truthful_of_run hrun (congrArg Call.op hcall)
  refine ⟨?_, ?_, ⟨time, ?_⟩, hdone, hnext⟩
  · obtain ⟨e', he', hsent⟩ := htruthful.sent
    exact ⟨e', List.mem_append_left _ he', hsent⟩
  · refine htruthful.thread.imp_right ?_
    rintro ⟨t₀, e', hstarted, hop⟩
    exact ⟨t₀, e', hstarted.append _, hop⟩
  · match answer with
    | .ok () =>
      refine Or.inl ⟨?_, standsIn_of_written hrun he hcall⟩
      rw [← hcall]
      exact he
    | .error .io =>
      rw [← hcall]
      exact Or.inr he
    | .error .poisoned => exact absurd rfl hanswer

theorem due_of_permits {handles delegates : Command → Prop} {γ : Hand} {o : Op}
    (h : (auditing config handles delegates).permits γ o) (hd : o.deed = some d) :
    γ.Due config d := by
  cases o with
  | moveTo newState =>
    obtain rfl := Option.some.inj hd
    exact h
  | write driverId value =>
    obtain rfl := Option.some.inj hd
    exact h
  | _ => cases hd

/-- **Every deed has been asked for.** -/
theorem asked_of_moment (hmoment : Moment (server F config profile fromSlice)
      (serverOf config profile fromSlice turns lines) t s t₁ m e m' t₂) {o : Op}
    (hop : e.call.op = .act (.op o)) (hd : o.deed = some d) :
    (∃ cmd done, Ordered F config profile fromSlice turns lines t₁ m.shared e.tid d cmd done) ∨
      Alarmed F config profile fromSlice turns lines t₁ e.tid d := by
  obtain ⟨k, hk, -⟩ := hmoment.step.self
  obtain ⟨tid, ⟨_, x⟩⟩ := e
  subst hop
  obtain ⟨p, horigin, hsteps⟩ := origin_of_run hmoment.before hk
  -- a thread that had nothing in hand when it was started
  have hordered : ∀ {γ : Hand}, γ.command = none →
      ((sectionsOf tid t₁).foldl Hand.next γ).Due config d →
      ∃ cmd done, Ordered F config profile fromSlice turns lines t₁ m.shared tid d cmd done := by
    rintro γ hγ ⟨cmd, done, hcommand, hnext⟩
    rcases doneSince_or hcommand with hdone | ⟨_, hsome, -⟩
    · exact ⟨cmd, done, ordered_of_doneSince hmoment.before hdone hnext⟩
    · rw [hγ] at hsome
      cases hsome
  cases horigin with
  | closure first =>
    have hobeys := closure_audited.discard (p := (scopeClosure config profile fromSlice turns).run)
    subst first
    exact Or.inl (hordered rfl (due_of_permits (audit_of_steps (hobeys ⟨none, none⟩) hsteps) hd))
  | command cmd t₀ e' started op =>
    have hdue := due_of_permits (audit_of_steps (commandRoutine_obeys cmd ⟨none, none⟩) hsteps) hd
    exact Or.inl (hordered rfl hdue)
  | stop t₀ e' started op =>
    obtain ⟨cmd, done, hcommand, hnext⟩ :=
      due_of_permits (audit_of_steps stopRoutine_follows hsteps) hd
    rcases doneSince_or hcommand with hdone | ⟨_, hstop, rfl⟩
    · exact Or.inl ⟨cmd, done, ordered_of_doneSince hmoment.before hdone hnext⟩
    · obtain ⟨rfl, rfl⟩ := Prod.mk.inj (Option.some.inj hstop)
      refine Or.inr ⟨t₀, e', started, op, ?_, hnext⟩
      obtain ⟨m₀, m₀', hrun, hstep, -⟩ := started.new
      obtain ⟨k', hk', -⟩ := hstep.self
      obtain ⟨tid', ⟨_, x'⟩⟩ := e'
      subst op
      exact alarms_of_spawnStop hrun hk'
  | listener thread t₀ e' started op mem =>
    have hdue := due_of_permits (audit_of_steps (listener_obeys F mem ⟨none, none⟩) hsteps) hd
    exact Or.inl (hordered rfl hdue)

/-- **Nothing happens unasked.**  At any moment of any run of the server: the guard and the driver lines
change only by a transition or a driver write; and where a thread attempts one, a client has asked for
it, by a command that the thread has logged, or a sensor has, by an average out of its range; and it
comes next in that command, or in the stop. -/
theorem nothing_unasked (F : Type) [F64 F] (config : Configuration) (profile : Profile)
    (fromSlice : List UInt8 → Option Command) (turns : Nat) (lines : List Bool)
    (t : List (Event ServerOp.Ans)) (s : Sys ServerOp ServerOp.Ans Controller)
    (t₁ t₂ : List (Event ServerOp.Ans)) (m m' : Sys ServerOp ServerOp.Ans Controller)
    (e : Event ServerOp.Ans)
    (hmoment : Moment (server F config profile fromSlice)
      (serverOf config profile fromSlice turns lines) t s t₁ m e m' t₂) :
    (m'.shared.shared.state.state ≠ m.shared.shared.state.state ∨
        m'.shared.shared.driverLines.val ≠ m.shared.shared.driverLines.val →
      ∃ o d, e.call.op = .act (.op o) ∧ o.deed = some d) ∧
    ∀ o d, e.call.op = .act (.op o) → o.deed = some d →
      (∃ cmd done, Ordered F config profile fromSlice turns lines t₁ m.shared e.tid d cmd done) ∨
        Alarmed F config profile fromSlice turns lines t₁ e.tid d := by
  refine ⟨fun hchange => ?_, fun o d hop hd => asked_of_moment hmoment hop hd⟩
  by_contra hno
  push Not at hno
  obtain ⟨w, -, hshared⟩ := hmoment.step.exec
  obtain ⟨hstate, hlines⟩ := exec_steady hno w m.shared
  rw [hshared] at hchange
  exact hchange.elim (absurd hstate) (absurd hlines)

end Runs

/-- No client is there, a reading is too high, and the valve is opened: the sensor has asked for it. -/
theorem valve_opened_for_sensor : ∃ t s t₁ m e m' t₂,
    Moment (server ℚ .alarmed .release fun _ => none)
      (serverOf .alarmed .release (fun _ => none) 1 [false]) t s t₁ m e m' t₂ ∧
    e.call.op = .act (.op (.write 0 true)) ∧
    Alarmed ℚ .alarmed .release (fun _ => none) 1 [false] t₁ e.tid (.write 0 true) := by
  obtain ⟨t, s, hrun, hp⟩ := exists_guardedRun
    (M := server ℚ .alarmed .release fun _ => none)
    (C := fun _ _ e => writesWell e) (G := fun _ _ e => ¬ FailsWrite e.call)
    (fun _ _ _ => not_failsWrite)
    ([(0, ServerWorld.fine)] ++
      List.replicate 19 (1, { ServerWorld.fine with adcResult := .ok 200 }) ++
      List.replicate 9 (2, ServerWorld.fine))
    (s := serverOf .alarmed .release (fun _ => none) 1 [false])
    (P := fun t _ => t.any (fun e => decide (e.call.op = .act (.op (.write 0 true)))) &&
      t.all fun e => decide (e.call.op ≠ .act .accept)) (by decide +kernel)
  simp only [Bool.and_eq_true, List.any_eq_true, List.all_eq_true, decide_eq_true_eq] at hp
  obtain ⟨⟨e, he, hop⟩, hnone⟩ := hp
  obtain ⟨t₁, t₂, rfl⟩ := List.append_of_mem he
  obtain ⟨m, m', hmoment⟩ := hrun.run.moment
  refine ⟨_, s, t₁, m, e, m', t₂, hmoment, hop, ?_⟩
  rcases (nothing_unasked ℚ .alarmed .release (fun _ => none) 1 [false] _ s t₁ t₂ m m' e hmoment).2
    (.write 0 true) (.write 0 true) hop rfl with ⟨cmd, done, hordered⟩ | halarmed
  · obtain ⟨e', he', src, hcall, -⟩ := hordered.sent
    exact absurd (congrArg Call.op hcall) (hnone e' (List.mem_append_left _ he'))
  · exact halarmed

end Slonk
