/-
# The driver log and the dashboards agree

The thread of the drivers' states reads the lines, writes what it has read to the driver log, and only
then sends it; it gives up if the log cannot be written, and sends nothing.  So no dashboard is told of a
state of the drivers that is not in the log: over a whole run of the server, what is sent of the drivers
is, sample by sample and in order, what has been written, and at most the last is still to be sent.

A sample is *sent* when it has been given to `DashChannel::send`, whether or not there was a dashboard to
send it to, and whether or not all of the message got there.

The thread works off a list again (`reports`), on which there is a sample from when it has been written
until it is sent.
-/
import Slonk.Conservation
import Slonk.Heartbeat

namespace Slonk

open Concurrency

/-! ## 1. The loop -/

/-- A sample is sent. -/
def outgoing : Worklist Op.Ans (List Bool) where
  takes
    | ⟨.send (.driverValue driverStates), _⟩ => some driverStates
    | _ => none
  fills _ := none

/-- A sample is sent that has been written to the log. -/
def reports : Worklist Act.Ans (List Bool) where
  takes c := (effect c).bind outgoing.takes
  fills
    | ⟨.writeDriverLog _ driverStates, some (.ok ())⟩ => some [driverStates]
    | _ => none

/-- What the thread does besides. -/
def Act.Neutral (a : Act) : Prop :=
  (∀ x, reports.takes ⟨a, x⟩ = none) ∧ ∀ x, reports.fills ⟨a, x⟩ = none

theorem neutral_of_common {a : Act} (h : a.Common) : a.Neutral := by
  cases a with
  | op o =>
    cases o with
    | now => exact ⟨fun _ => rfl, fun _ => rfl⟩
    | sleep duration => exact ⟨fun _ => rfl, fun _ => rfl⟩
    | userLog level message => exact ⟨fun _ => rfl, fun _ => rfl⟩
    | _ => exact h.elim
  | acquire l mode => exact ⟨fun _ => rfl, fun _ => rfl⟩
  | release l => exact ⟨fun _ => rfl, fun _ => rfl⟩
  | unwind guards => exact ⟨fun _ => rfl, fun _ => rfl⟩
  | status => exact ⟨fun _ => rfl, fun _ => rfl⟩
  | _ => exact h.elim

theorem reports_lifts : Lifts (outgoing.inOrder True) (fun _ _ => True) (reports.inOrder True)
    (fun a x => Orderly a (some x)) := by
  refine lifts_of_takes (fun _ => rfl) (fun _ => rfl) (fun _ _ => rfl) ?_ (fun _ _ _ => trivial) ?_
  · intro a ha x
    cases a with
    | writeDriverLog readTime driverStates => exact ha.elim
    | _ => rfl
  · -- a channel is never poisoned, as the answers are orderly
    exact fun h => by cases h

section Programs

variable {α β : Type}

/-- A part of the thread that leaves nothing to be sent. -/
abbrev Reporting (p : Routine RunError α) : Prop :=
  p.run.Follows (reports.inOrder True) (fun a x => Orderly a (some x)) [] fun _ γ' => γ' = []

theorem reporting_of_neutral {p : Routine RunError α} (hp : p.run.All Act.Neutral) : Reporting p :=
  hp.follows (fun _ h => Worklist.permits_idle h.1 h.2) (fun _ _ h => Worklist.next_idle (h.1 _) (h.2 _))
    rfl

theorem reporting_bind {p : Routine RunError α} {f : α → Routine RunError β} (hp : Reporting p)
    (hf : ∀ a, Reporting (f a)) : Reporting (p >>= f) := by
  refine Fallible.follows_bind hp ?_ fun _ _ h => h
  rintro a _ rfl
  exact hf a

/-- A block under the lock of the driver lines. -/
theorem reporting_guarded {p : Bool → Routine RunError α} (hp : ∀ poisoned, Reporting (p poisoned)) :
    Reporting (.guarded (.acquire .driverLines .exclusive) p (.release .driverLines)) := by
  refine reports_lifts.guarded fun poisoned _ => ?_
  exact hp poisoned

/-- **What has been written is sent.** -/
theorem statusLocked_reporting (readTime : Nat) (driverStates : List Bool) :
    Reporting (statusLocked readTime driverStates) := by
  have hread : (readDrivers driverStates).run.All Act.Neutral :=
    (keeps_readDrivers (R := fun _ _ => True) (A := fun _ _ => True) (fun _ => neutral_of_common)
      (fun _ _ _ => trivial) (fun _ => ⟨fun _ => rfl, fun _ => rfl⟩) driverStates).all
  refine reporting_bind (reporting_of_neutral hread) fun driverStates => ?_
  · refine ⟨⟨fun _ _ h => (by cases h), fun _ _ _ _ => rfl⟩, ?_⟩
    rintro (e | u) -
    · exact rfl
    · have hsend : (outgoing.inOrder True).permits [driverStates] (.send (.driverValue driverStates)) := by
        refine ⟨fun _ _ h => h, ?_⟩
        intro _ x l hl
        cases hl
      refine Fallible.follows_bind (?_ : (Routine.send (.driverValue driverStates)).run.Follows
        (reports.inOrder True) (fun a x => Orderly a (some x)) _ fun _ γ' => γ' = []) ?_ fun _ _ h => h
      · refine Prog.Follows.bind ((reports_lifts.critical _ _ hsend).mono ?_)
        rintro r _ ⟨-, rfl⟩
        exact rfl
      · exact fun _ _ h => h

theorem statusTurn_reporting (sleepTime : Duration) (driverStates : List Bool) :
    Reporting (statusTurn sleepTime driverStates) := by
  have hcommon : ∀ {α : Type} {p : Routine RunError α},
      Locks.Keeps (fun _ _ => True) Act.Common (fun _ _ => True) [] p.run → Reporting p :=
    fun hp => reporting_of_neutral (hp.all.mono fun _ => neutral_of_common)
  refine reporting_bind (hcommon (keeps_status fun _ => id)) fun state => ?_
  split
  · exact rfl
  · refine reporting_bind (hcommon (keeps_now fun _ => id)) fun readTime => ?_
    refine reporting_bind (reporting_guarded fun poisoned => ?_) fun driverStates =>
      reporting_bind (hcommon (keeps_sleep (fun _ => id) _)) fun _ => rfl
    split
    · exact reporting_bind (hcommon (keeps_note (fun _ => id) _ _ _ (fun _ _ => trivial))) fun _ => rfl
    · exact statusLocked_reporting readTime driverStates

/-- **The thread.** -/
theorem driverStatusListen_reporting (config : Configuration) (turns : Nat) :
    Reporting (driverStatusListen config turns) := by
  unfold driverStatusListen
  split
  · exact rfl
  · refine reporting_bind (reporting_guarded fun poisoned => ?_) fun count => ?_
    · cases poisoned with
      | true => exact rfl
      | false => exact reporting_of_neutral ⟨⟨fun _ => rfl, fun _ => rfl⟩, fun _ => trivial⟩
    · refine reporting_bind ?_ fun _ => rfl
      refine Fallible.follows_loop (I := fun _ γ => γ = []) (Q := fun _ γ => γ = []) ?_
        (fun _ _ h => h) turns rfl
      rintro driverStates _ rfl
      refine (statusTurn_reporting _ driverStates).mono ?_
      rintro (e | (a | b)) _ rfl
      · exact rfl
      · exact rfl
      · exact rfl

end Programs

/-! ## 2. Runs -/

/-- The sample of the drivers' states that a call sends. -/
def toldOf : Call ServerOp.Ans → Option (List Bool)
  | ⟨.act (.op (.send (.driverValue driverStates))), _⟩ => some driverStates
  | _ => none

/-- The sample that a call has written to the driver log. -/
def writtenOf : Call ServerOp.Ans → Option (List Bool)
  | ⟨.act (.writeDriverLog _ driverStates), some (.ok ())⟩ => some driverStates
  | _ => none

/-- The operations that send samples, or write them. -/
def Act.Tells (a : Act) : Prop :=
  (∃ driverStates, a = .op (.send (.driverValue driverStates))) ∨
    ∃ readTime driverStates, a = .writeDriverLog readTime driverStates

theorem Act.Tells.not_common {a : Act} (h : a.Tells) : ¬ a.Common := by
  rcases h with ⟨_, rfl⟩ | ⟨_, _, rfl⟩
  · exact id
  · exact id

theorem toldOf_eq (c : Call ServerOp.Ans) : (reports.through serverAct).takes c = toldOf c := by
  obtain ⟨o, x⟩ := c
  cases o with
  | act a =>
    cases a with
    | op o =>
      cases o with
      | send message => cases message <;> rfl
      | _ => rfl
    | _ => rfl
  | _ => rfl

theorem writtenOf_eq (c : Call ServerOp.Ans) :
    (reports.through serverAct).fills c = (writtenOf c).map fun driverStates => [driverStates] := by
  obtain ⟨o, x⟩ := c
  cases o with
  | act a =>
    cases a with
    | writeDriverLog readTime driverStates => obtain _ | (_ | _) := x <;> rfl
    | _ => rfl
  | _ => rfl

theorem tells_of_call {c : Call ServerOp.Ans} (h : toldOf c ≠ none ∨ writtenOf c ≠ none) :
    ∃ a : Act, c.op = .act a ∧ a.Tells := by
  rcases h with h | h
  · unfold toldOf at h
    split at h
    · exact ⟨_, rfl, Or.inl ⟨_, rfl⟩⟩
    · exact absurd rfl h
  · unfold writtenOf at h
    split at h
    · exact ⟨_, rfl, Or.inr ⟨_, _, rfl⟩⟩
    · exact absurd rfl h

/-- Only one thread does. -/
theorem Thread.Performs.tells {config : Configuration} {thread : Thread} {a : Act}
    (h : thread.Performs config a) (ha : a.Tells) : ∃ turns, thread = .driverStatusListen turns := by
  replace h := h.resolve_left ha.not_common
  cases thread with
  | driverStatusListen turns => exact ⟨turns, rfl⟩
  | accepting turns =>
    rcases ha with ⟨_, rfl⟩ | ⟨_, _, rfl⟩
    · cases h
    · exact h.elim
  | sensorListen groupId logFiles turns =>
    rcases ha with ⟨_, rfl⟩ | ⟨_, _, rfl⟩
    · obtain ⟨_, ⟨⟩⟩ := h
    · exact h.elim
  | heartbeat turns =>
    obtain ⟨_, rfl⟩ := h
    simp [Act.Tells] at ha
  | handleCommand cmd =>
    rcases h with ⟨_, rfl⟩ | ⟨_, _, rfl⟩ | ⟨_, _, rfl⟩ <;> simp [Act.Tells] at ha
  | emergencyStop =>
    rcases h with ⟨_, rfl⟩ | ⟨_, _, rfl⟩ <;> simp [Act.Tells] at ha

/-- One list for each sample. -/
theorem flatten_filterMap_singleton (h : List (Call ServerOp.Ans)) :
    (h.filterMap fun c => (writtenOf c).map fun driverStates => [driverStates]).flatten
      = h.filterMap writtenOf := by
  induction h with
  | nil => rfl
  | cons c h ih => cases hc : writtenOf c <;> simpa [hc] using ih

section Runs

variable {F : Type} [F64 F] {config : Configuration} {profile : Profile}
  {fromSlice : List UInt8 → Option Command} {turns : Nat} {lines : List Bool}
  {t : List (Event ServerOp.Ans)} {s : Sys ServerOp ServerOp.Ans Controller}
  (hrun : Run (server F config profile fromSlice) (serverOf config profile fromSlice turns lines) t s)

include hrun

/-- Whoever sends or writes a sample was started to do so. -/
theorem reporter_started {e : Event ServerOp.Ans} (he : e ∈ t)
    (h : toldOf e.call ≠ none ∨ writtenOf e.call ≠ none) :
    ∃ t₁ e', StartedBy (server F config profile fromSlice)
      (serverOf config profile fromSlice turns lines) t e.tid t₁ e' ∧
      e'.call.op = .spawnListener (.driverStatusListen turns) := by
  obtain ⟨a, hop, ha⟩ := tells_of_call h
  have haccepts : ¬ a.Accepts config := by
    rcases ha with ⟨_, rfl⟩ | ⟨_, _, rfl⟩
    · rintro ⟨⟩
    · exact id
  obtain ⟨thread, hmem, hperforms, t₁, e', hstarted, hop'⟩ := listener_of_act hrun ha.not_common haccepts
    (fun thread h => by obtain ⟨n, rfl⟩ := h.tells ha; simp) he hop
  obtain ⟨n, rfl⟩ := hperforms.tells ha
  obtain rfl : n = turns := by simpa [listeners] using hmem
  exact ⟨t₁, e', hstarted, hop'⟩

/-- What the thread has written it has sent, but for the last. -/
theorem reporter_agrees {i : Nat} {q : Prog ServerOp ServerOp.Ans Unit}
    (hsteps : Prog.Steps (ofActs (driverStatusListen config turns).run.discard) (history i t) q) :
    ∃ unsent : List (List Bool), unsent.length ≤ 1 ∧
      (history i t).filterMap writtenOf = (history i t).filterMap toldOf ++ unsent := by
  have hreporting : (driverStatusListen config turns).run.discard.Follows (reports.inOrder True)
      (fun a x => Orderly a (some x)) [] fun _ γ' => γ' = [] :=
    .discard (driverStatusListen_reporting config turns)
  have hfollows := Worklist.follows_through (ofActs_follows hreporting)
  have horderly : ∀ e ∈ t, e.tid = i → ∀ x, e.call.ans = some x →
      serverAnswers (fun a x => Orderly a (some x)) e.call.op x := by
    intro e he _
    have hserver := orderly_of_run hrun e he
    refine serverAnswers_of_acts fun a x hcall => ?_
    rw [hcall] at hserver
    exact hserver
  have happend := Worklist.takes_append_after trivial hfollows hsteps (forall_mem_history horderly)
  have hunsent := hfollows.invariant (I := fun γ => γ.length ≤ 1) hsteps (forall_mem_history horderly)
    (by simp) ?_
  · refine ⟨_, hunsent, ?_⟩
    have htold : (history i t).filterMap (reports.through serverAct).takes
        = (history i t).filterMap toldOf := List.filterMap_congr fun c _ => toldOf_eq c
    have hwritten : ((history i t).filterMap (reports.through serverAct).fills).flatten
        = (history i t).filterMap writtenOf := by
      rw [List.filterMap_congr fun c _ => writtenOf_eq c]
      exact flatten_filterMap_singleton _
    rw [List.nil_append, htold, hwritten] at happend
    exact happend.symm
  · intro γ c _ hγ
    change ((reports.through serverAct).next γ c).length ≤ 1
    rw [Worklist.next, writtenOf_eq]
    cases writtenOf c with
    | some driverStates => simp
    | none =>
      simp only [Option.map_none, Option.getD_none]
      split
      · rw [List.length_tail]
        omega
      · exact hγ

end Runs

/-- **The log and the dashboards agree.**  In every run of the server, the samples of the drivers' states
that have been given to `send`, by whichever thread, are one by one and in order those that have been
written to the driver log; at most the last sample of the log has not been sent. -/
theorem driver_log_agrees (F : Type) [F64 F] (config : Configuration) (profile : Profile)
    (fromSlice : List UInt8 → Option Command) (turns : Nat) (lines : List Bool)
    (t : List (Event ServerOp.Ans)) (s : Sys ServerOp ServerOp.Ans Controller)
    (hrun : Run (server F config profile fromSlice) (serverOf config profile fromSlice turns lines)
      t s) :
    ∃ unsent : List (List Bool), unsent.length ≤ 1 ∧
      (t.filterMap fun e => writtenOf e.call) = (t.filterMap fun e => toldOf e.call) ++ unsent := by
  by_cases hstarted : ∃ i t₁ e, StartedBy (server F config profile fromSlice)
      (serverOf config profile fromSlice turns lines) t i t₁ e ∧
      e.call.op = .spawnListener (.driverStatusListen turns)
  · obtain ⟨i, t₁, e, hstarted, hop⟩ := hstarted
    have hcount : (listeners config turns).count (.driverStatusListen turns) ≤ 1 := by
      simp [listeners, List.count_append, List.count_eq_zero]
    have hother : ∀ e ∈ t, e.tid ≠ i → ¬ (toldOf e.call ≠ none ∨ writtenOf e.call ≠ none) := by
      intro e' he' htid h
      obtain ⟨t₁', e'', hstarted', hop'⟩ := reporter_started hrun he' h
      exact htid (started_once hrun hcount hstarted' hstarted hop' hop)
    rw [filterMap_history (f := toldOf) fun e he htid =>
        not_not.mp (not_or.mp (hother e he htid)).1,
      filterMap_history (f := writtenOf) fun e he htid =>
        not_not.mp (not_or.mp (hother e he htid)).2]
    obtain ⟨q, -, hsteps⟩ := hstarted.steps hrun (by rw [hop]; rfl)
    exact reporter_agrees hrun hsteps
  · -- the closure has not come to start the thread
    have hnone : ∀ e ∈ t, ¬ (toldOf e.call ≠ none ∨ writtenOf e.call ≠ none) := by
      intro e he h
      obtain ⟨t₁, e', h', hop'⟩ := reporter_started hrun he h
      exact hstarted ⟨_, t₁, e', h', hop'⟩
    refine ⟨[], by simp, ?_⟩
    rw [List.filterMap_eq_nil_iff.mpr fun e he => not_not.mp (not_or.mp (hnone e he)).1,
      List.filterMap_eq_nil_iff.mpr fun e he => not_not.mp (not_or.mp (hnone e he)).2]
    rfl

/-- One sample is in the log, and it is the one that has been sent. -/
theorem sample_logged_and_sent : ∃ t s,
    Run (server ℚ (.oneDriver [] []) .release fun _ => none)
      (serverOf (.oneDriver [] []) .release (fun _ => none) 1 [true]) t s ∧
    (t.filterMap fun e => writtenOf e.call) = [[true]] ∧
    (t.filterMap fun e => toldOf e.call) = [[true]] := by
  obtain ⟨t, s, hrun, hp⟩ := exists_guardedRun
    (M := server ℚ (.oneDriver [] []) .release fun _ => none)
    (C := fun _ _ _ => true) (G := fun _ _ _ => True) (fun _ _ _ _ => trivial)
    (List.replicate 2 (0, ServerWorld.fine) ++ List.replicate 17 (1, ServerWorld.fine))
    (s := serverOf (.oneDriver [] []) .release (fun _ => none) 1 [true])
    (P := fun t _ => decide ((t.filterMap fun e => writtenOf e.call) = [[true]]) &&
      decide ((t.filterMap fun e => toldOf e.call) ≠ [])) (by decide +kernel)
  rw [Bool.and_eq_true, decide_eq_true_eq, decide_eq_true_eq] at hp
  obtain ⟨unsent, -, hagree⟩ := driver_log_agrees ℚ (.oneDriver [] []) .release (fun _ => none) 1
    [true] t s hrun.run
  refine ⟨t, s, hrun.run, hp.1, ?_⟩
  rw [hp.1] at hagree
  obtain ⟨told, sent, hsent⟩ := List.exists_cons_of_ne_nil hp.2
  rw [hsent, List.cons_append] at hagree
  obtain ⟨rfl, hnil⟩ := List.cons.inj hagree
  rw [hsent, (List.append_eq_nil_iff.mp hnil.symm).1]

end Slonk
