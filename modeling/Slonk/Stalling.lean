/-
# The dashboard and the driver lines

An emergency stop writes to the driver lines under their mutex.  `DashChannel::send` may wait for a
dashboard that does not read.  So whoever holds the driver lines should be neither in `send` nor on
the way to its lock (`ShutoffUnblocked`).

Only `driver_status_listen` can break that.  It takes the driver lines to read them, and drops them
before it sleeps, but writes its log and sends in between.  Where its log write fails, the `?` leaves
before the `send`, and no thread holds the driver lines and goes to the dashboard
(`Nests` without `NestsStatus`).  Where it succeeds, the very next operation of the thread is to take
the lock of the channel, with the driver lines held: the proof follows the thread by `afterLog`.
-/
import Slonk.Nesting

namespace Slonk

open Concurrency

/-! ## 1. The property -/

/-- **A stalled dashboard cannot block a shutoff.** -/
structure ShutoffUnblocked (t : List (Event Act.Ans)) (s : Sys Act Act.Ans Controller) : Prop where
  /-- Who holds the driver lines is not about to take the lock of the channel, nor holds it. -/
  drivers : ∀ i mode, Locks.Holds t s i .driverLines mode →
    (∀ mode', ¬ Locks.Requests s i .dashChannel mode') ∧
      ∀ mode', ¬ Locks.Holds t s i .dashChannel mode'
  /-- Who wants to actuate a driver waits for nobody who holds the lock of the channel, neither at
  once nor along a chain of waiting threads. -/
  actuation : ∀ j i mode, Locks.Requests s j .driverLines mode →
    Relation.TransGen (Locks.WaitsFor t s) j i → ∀ mode', ¬ Locks.Holds t s i .dashChannel mode'

/-- `write_driver_log` has succeeded. -/
def LogsStatus (e : Event Act.Ans) : Prop :=
  match e.call with
  | ⟨.writeDriverLog _ _, some (.ok ())⟩ => True
  | _ => False

/-- The answers of runs in which it never does. -/
def NotLogged : (a : Act) → a.Ans → Prop
  | .writeDriverLog _ _, r => r = .error ()
  | _, _ => True

theorem notLogged_of_not_logsStatus {e : Event Act.Ans} (h : ¬ LogsStatus e) {x : e.call.op.Ans}
    (hx : e.call.ans = some x) : NotLogged e.call.op x := by
  obtain ⟨tid, a, ans⟩ := e
  cases a with
  | writeDriverLog readTime driverStates =>
    match x with
    | .ok () =>
      unfold LogsStatus at h
      simp only at hx
      simp only [hx] at h
      exact absurd trivial h
    | .error () => rfl
  | _ => trivial

variable {F : Type} [F64 F] {config : Configuration} {profile : Profile}
  {fromSlice : List UInt8 → Option Command} {threads : List Thread} {c : Controller}
  {t : List (Event Act.Ans)} {s : Sys Act Act.Ans Controller}

/-! ## 2. While the log write fails -/

/-- **Without a status logged, no shutoff is blocked.** -/
theorem unblocked_of_not_logged
    (hrun : ControllerRun F config profile fromSlice (fun _ _ e => ¬ LogsStatus e) threads c t s) :
    ShutoffUnblocked t s := by
  have hs := controllerOf_keeps (R := Nests) (A := NotLogged) (fun _ _ => id)
    (fun _ _ h => by cases h) F config profile fromSlice threads c
  have hfork := fork_keeps_locks (R := Nests) (A := NotLogged) (fun _ _ => id) config
  have hrun' : Run (controller config) (controllerOf F config profile fromSlice threads c) t s :=
    hrun.run
  have hA : ∀ e ∈ t, ∀ x, e.call.ans = some x → NotLogged e.call.op x :=
    hrun.forall_mem fun _ _ e _ hg _ x hx => notLogged_of_not_logsStatus hg.2 hx
  -- nothing is nested over the lock of the channel
  have hchannel : ∀ i l mode mode', Locks.Holds t s i l mode →
      (l = .driverLines ∨ l = .userLog) → ¬ Locks.Holds t s i .dashChannel mode' := by
    intro i l mode mode' hl heq hd
    have hne : l ≠ .dashChannel := by rcases heq with rfl | rfl <;> simp
    rcases hl.nested hs hfork hrun' hA hd hne with h | h
    · cases h
    · rcases heq with rfl | rfl <;> cases h
  refine ⟨fun i mode hl => ⟨fun mode' hr => ?_, fun mode' => hchannel i _ mode mode' hl (Or.inl rfl)⟩,
    fun j i mode hr hchain mode' => ?_⟩
  · cases hr.nested hs hfork hrun' hA hl
  · -- along the chain, driver lines are held first and the user log after them
    have hheld : ∃ l mode, Locks.Holds t s i l mode ∧ (l = .driverLines ∨ l = .userLog) := by
      induction hchain with
      | single hw =>
        obtain ⟨l, _, mode', hr', hh⟩ := hw
        obtain rfl := hr.unique hr'
        exact ⟨_, mode', hh, Or.inl rfl⟩
      | tail _ hw ih =>
        obtain ⟨l, mode, hh, heq⟩ := ih
        obtain ⟨l', _, mode', hr', hh'⟩ := hw
        have hn := hr'.nested hs hfork hrun' hA hh
        rcases heq with rfl | rfl
        · cases hn
          exact ⟨_, mode', hh', Or.inr rfl⟩
        · cases hn
    obtain ⟨l, mode, hh, heq⟩ := hheld
    exact hchannel i l mode mode' hh heq

/-! ## 3. After a log write that has succeeded -/

/-- The operations that do not write the status log. -/
def Act.NoLog : Act → Prop
  | writeDriverLog _ _ => False
  | _ => True

/-- Has the call written the status log? -/
def logged : Call Act.Ans → Bool
  | ⟨.writeDriverLog _ _, some (.ok ())⟩ => true
  | _ => false

/-- The state is the locks held, and whether the status was logged just now; then the lock of the
channel comes next, and the driver lines are still held. -/
def afterLog : Protocol Act Act.Ans (List (Lock × Mode) × Bool) where
  permits γ a := γ.2 = true → a = .acquire .dashChannel .exclusive ∧
    (Lock.driverLines, Mode.exclusive) ∈ γ.1
  aborts γ := γ.2 = false
  next γ c := (Locks.next γ.1 c, logged c)

variable {α β : Type} {ε : Type}

/-- How a program ends that logs no status: with these locks. -/
abbrev Quiet (held : List (Lock × Mode)) (p : Prog Act Act.Ans α) : Prop :=
  p.Follows afterLog (fun _ _ => True) (held, false) fun _ γ => γ = (held, false)

theorem not_logsStatus_of_logged {e : Event Act.Ans} (h : logged e.call = false) :
    ¬ LogsStatus e := by
  intro he
  obtain ⟨tid, ⟨a, x⟩⟩ := e
  cases a with
  | writeDriverLog readTime driverStates =>
    match x with
    | some (.ok ()) => cases h
    | some (.error ()) => exact he
    | none => exact he
  | _ => exact he

theorem logged_of_noLog {a : Act} (h : a.NoLog) (x : Option a.Ans) : logged ⟨a, x⟩ = false := by
  cases a with
  | writeDriverLog readTime driverStates => exact h.elim
  | _ => rfl

theorem quiet_of_keeps {held : List (Lock × Mode)} {p : Prog Act Act.Ans α}
    (hp : Locks.Keeps (fun _ _ => True) Act.NoLog (fun _ _ => True) held p) : Quiet held p := by
  have hgen : ∀ (p : Prog Act Act.Ans α) (Q : α → List (Lock × Mode) → Prop) (held' : _),
      p.Follows (Locks.nesting (fun _ _ => True) Act.NoLog) (fun _ _ => True) held' Q →
      p.Follows afterLog (fun _ _ => True) (held', false) fun a γ => Q a γ.1 ∧ γ.2 = false := by
    intro p
    induction p with
    | ret a => exact fun Q held' h => ⟨h, rfl⟩
    | panic => exact fun _ _ _ => rfl
    | op a k ih =>
      intro Q held' h
      refine ⟨nofun, fun x _ => ?_⟩
      have hnext : afterLog.next (held', false) ⟨a, some x⟩
          = ((Locks.nesting (fun _ _ => True) Act.NoLog).next held' ⟨a, some x⟩, false) :=
        congrArg (Prod.mk _) (logged_of_noLog h.1.1 _)
      rw [hnext]
      exact ih x Q _ (h.2 x trivial)
  exact (hgen p _ held hp).mono fun a γ h => Prod.ext h.1 h.2

theorem quiet_bind {held : List (Lock × Mode)} {p : Routine ε α} {f : α → Routine ε β}
    (hp : Quiet held p.run) (hf : ∀ a, Quiet held (f a).run) : Quiet held (p >>= f).run := by
  refine Fallible.follows_bind hp ?_ fun e γ h => h
  rintro a _ rfl
  exact hf a

theorem quiet_guarded {l : Lock} {mode : Mode} {held : List (Lock × Mode)}
    {p : Bool → Prog Act Act.Ans α} (hp : ∀ poisoned, Quiet ((l, mode) :: held) (p poisoned)) :
    Quiet held (Prog.guarded (.acquire l mode) p (.release l)) := by
  refine Prog.Follows.guarded nofun (fun poisoned _ => hp poisoned) ?_
  rintro r _ rfl
  refine ⟨nofun, fun _ _ => Prod.ext ?_ rfl⟩
  show ((l, mode) :: held).eraseP (·.1 = l) = held
  simp

/-- The operations a program may share with every thread log no status. -/
theorem noLog_of_common {a : Act} (h : a.Common) : a.NoLog := by
  cases a with
  | writeDriverLog readTime driverStates => exact h.elim
  | _ => trivial

/-- **With the driver lines held** the status is logged, and sent at once. -/
theorem quiet_statusLocked (readTime : Nat) (driverStates : List Bool) :
    Quiet [(.driverLines, .exclusive)] (statusLocked readTime driverStates).run := by
  refine quiet_bind (quiet_of_keeps (keeps_readDrivers (fun _ => noLog_of_common)
    (fun _ _ _ => trivial) (fun _ => trivial) driverStates)) fun driverStates => ?_
  have hsend : Quiet [(.driverLines, .exclusive)] (do
      Routine.send (.driverValue driverStates)
      pure driverStates : Routine RunError (List Bool)).run :=
    quiet_bind (quiet_of_keeps ((keeps_send (fun _ => noLog_of_common) trivial
      (fun _ _ => trivial) (fun _ _ => trivial) trivial).bind fun _ => .ret _)) fun _ => rfl
  refine ⟨nofun, ?_⟩
  rintro (e | u) _
  · exact rfl
  · exact ⟨fun _ => ⟨rfl, List.mem_singleton.mpr rfl⟩, hsend.2⟩

theorem quiet_driverStatusListen (config : Configuration) (turns : Nat) :
    Quiet [] (driverStatusListen config turns).run := by
  have hc : ∀ a, Act.Common a → a.NoLog := fun _ => noLog_of_common
  unfold driverStatusListen
  split
  · exact rfl
  · refine quiet_bind (quiet_guarded fun poisoned => ?_) fun count => ?_
    · cases poisoned with
      | true => exact rfl
      | false => exact ⟨nofun, fun _ _ => rfl⟩
    · refine quiet_bind (Fallible.follows_loop (I := fun _ γ => γ = ([], false)) ?_
        (fun _ _ h => h) turns rfl) fun _ => rfl
      rintro driverStates _ rfl
      refine Prog.Follows.mono (?_ : Quiet [] (statusTurn _ driverStates).run) ?_
      · refine quiet_bind (quiet_of_keeps (keeps_status hc)) fun state => ?_
        split
        · exact rfl
        refine quiet_bind (quiet_of_keeps (keeps_now hc)) fun readTime => ?_
        refine quiet_bind (quiet_guarded fun poisoned => ?_) fun _ =>
          quiet_bind (quiet_of_keeps (keeps_sleep hc _)) fun _ => rfl
        cases poisoned with
        | true =>
          exact quiet_bind (quiet_of_keeps (keeps_note hc _ _ _ fun _ _ => trivial)) fun _ => rfl
        | false => exact quiet_statusLocked readTime driverStates
      · rintro (e | (a | u)) _ rfl
        · exact rfl
        · exact rfl
        · exact rfl

/-- A thread of another kind logs no status. -/
theorem noLog_of_performs {thread : Thread} {a : Act} (h : thread.Performs config a)
    (hthread : ∀ turns, thread ≠ .driverStatusListen turns) : a.NoLog := by
  rcases h with h | h
  · exact noLog_of_common h
  · cases a with
    | writeDriverLog readTime driverStates =>
      cases thread with
      | driverStatusListen turns => exact absurd rfl (hthread turns)
      | accepting turns => exact h.elim
      | sensorListen groupId logFiles turns => exact h.elim
      | heartbeat turns => simp at h
      | handleCommand cmd => simp at h
      | emergencyStop => simp at h
    | _ => trivial

theorem quiet_program (F : Type) [F64 F] (config : Configuration) (profile : Profile)
    (fromSlice : List UInt8 → Option Command) (thread : Thread) :
    Quiet [] (thread.program F config profile fromSlice) := by
  by_cases hthread : ∀ turns, thread ≠ .driverStatusListen turns
  · exact quiet_of_keeps ((thread.program_keeps (R := fun _ _ => True) (fun _ _ _ => trivial)
      (fun _ _ _ _ _ _ => trivial) F config profile fromSlice).mono (fun _ _ => id)
      fun _ h => noLog_of_performs h hthread)
  · push Not at hthread
    obtain ⟨turns, rfl⟩ := hthread
    exact Prog.Follows.discard ((quiet_driverStatusListen config turns).mono fun _ _ h => h)

theorem quiet_fork {a : Act} {p : Prog Act Act.Ans Unit}
    (h : (controller config).fork a = some p) : Quiet [] p := by
  obtain ⟨thread, hthread, hp⟩ := fork_keeps (R := fun _ _ => True) (fun _ _ _ => trivial) config h
  refine quiet_of_keeps (hp.mono (fun _ _ => id) fun _ h => noLog_of_performs h ?_)
  rintro turns rfl
  rcases hthread with ⟨cmd, h⟩ | h
  · cases h
  · cases h

theorem afterLog_after (h : List (Call Act.Ans)) (γ : List (Lock × Mode) × Bool) :
    (afterLog.after γ h).1 = h.foldl Locks.next γ.1 := by
  induction h generalizing γ with
  | nil => rfl
  | cons c h ih => exact ih _

/-- **Right after a status has been logged, a shutoff can be blocked**: the thread that has logged it
holds the driver lines and is about to take the lock of the channel. -/
theorem blocked_of_logged {e : Event Act.Ans}
    (hrun : Run (controller config) (controllerOf F config profile fromSlice threads c) (t ++ [e]) s)
    (he : LogsStatus e) : ¬ ShutoffUnblocked (t ++ [e]) s := by
  obtain ⟨m, hrun₁, hstep⟩ := hrun.concat_inv
  obtain ⟨k, hk, hk'⟩ := hstep.self
  have hs : ∀ p ∈ (controllerOf F config profile fromSlice threads c).threads, Quiet [] p := by
    intro p hp
    obtain ⟨thread, -, rfl⟩ := List.mem_map.mp hp
    exact quiet_program F config profile fromSlice thread
  rcases hrun₁.follows hs (fun _ _ h => quiet_fork h) (fun _ _ _ _ => trivial) hk with
    ⟨hpanic, -⟩ | hfollows
  · cases hpanic
  obtain ⟨tid, a, ans⟩ := e
  obtain ⟨x, rfl⟩ : ∃ x, ans = some x := by
    cases ans with
    | some x => exact ⟨x, rfl⟩
    | none =>
      cases a <;> exact he.elim
  have hnext := hfollows.2 x trivial
  have hdue : logged ⟨a, some x⟩ = true := by
    cases a with
    | writeDriverLog readTime driverStates =>
      match x with
      | .ok () => rfl
      | .error () => exact he.elim
    | _ => exact he.elim
  have hheld : (afterLog.next (afterLog.after ([], false) (history tid t)) ⟨a, some x⟩).1
      = Locks.held (history tid (t ++ [⟨tid, a, some x⟩])) := by
    rw [show history tid (t ++ [⟨tid, a, some x⟩]) = history tid t ++ [⟨a, some x⟩] from
      history_concat_self t ⟨tid, a, some x⟩]
    simp only [Locking.held, List.foldl_append, List.foldl_cons, List.foldl_nil]
    exact congrArg (Locks.next · _) (afterLog_after _ _)
  rw [Prog.resume_some] at hk'
  cases hq : k x with
  | ret u =>
    rw [hq] at hnext
    have := congrArg Prod.snd (show (_, _) = ([], false) from hnext)
    rw [hdue] at this
    cases this
  | panic =>
    rw [hq] at hnext
    have : logged ⟨a, some x⟩ = false := hnext
    rw [hdue] at this
    cases this
  | op a' k' =>
    rw [hq] at hnext hk'
    obtain ⟨rfl, hmem⟩ := hnext.1 hdue
    rw [hheld] at hmem
    intro h
    exact (h.drivers tid .exclusive ⟨_, hk', id, hmem⟩).1 .exclusive ⟨_, k', hk', rfl⟩

/-! ## 4. The condition -/

/-- **A shutoff is unblocked as long as no status has been logged**: in every run of any threads in
which no log write of `driver_status_listen` succeeds.  Right after each one that does, its thread holds
the driver lines and requests the lock of the channel, which `ShutoffUnblocked` forbids; whether it has
to wait there depends on who holds that lock, and on the dashboard. -/
theorem shutoff_unblocked_unless_logged (F : Type) [F64 F] (config : Configuration)
    (profile : Profile) (fromSlice : List UInt8 → Option Command) (threads : List Thread)
    (c : Controller) :
    (∀ t s, ControllerRun F config profile fromSlice (fun _ _ e => ¬ LogsStatus e) threads c t s →
      ShutoffUnblocked t s) ∧
    ∀ t e s, ControllerRun F config profile fromSlice (fun _ _ _ => True) threads c (t ++ [e]) s →
      LogsStatus e → ¬ ShutoffUnblocked (t ++ [e]) s :=
  ⟨fun _ _ hrun => unblocked_of_not_logged hrun, fun _ _ _ hrun => blocked_of_logged hrun.run⟩

/-- A client has connected and the log of `driver_status_listen` cannot be written: it gives up before it
would send, and the emergency stop, which has waited for its driver lines, writes to the driver. -/
theorem stop_unblocked_by_failing_log : ∃ t s,
    ControllerRun ℚ (.oneDriver [] [.actuate 0 true]) .release (fun _ => none)
      (fun _ _ e => ¬ LogsStatus e) [.accepting 1, .driverStatusListen 1, .emergencyStop]
      (.new [false]) t s ∧
    s.shared.shared.toDash.dashChannel.val = some [] ∧ s.shared.shared.driverLines.val = [true] ∧
    ShutoffUnblocked t s := by
  let world : World := { World.fine with driverLogFails := true }
  obtain ⟨t, s, hrun, hp⟩ := exists_guardedRun (M := controller (.oneDriver [] [.actuate 0 true]))
    (G := fun t s e => Locks.Grants t s e ∧ ¬ LogsStatus e)
    (C := fun t s e => Locks.grants t s e && !logged e.call)
    (fun t s e h => by
      simp only [Bool.and_eq_true, Bool.not_eq_true'] at h
      exact ⟨Locking.grants_of_grants h.1, not_logsStatus_of_logged h.2⟩)
    -- the stop waits while the log is written
    (List.replicate 9 (0, world) ++ List.replicate 8 (1, world) ++ List.replicate 3 (2, world) ++
      List.replicate 3 (1, world) ++ List.replicate 3 (2, world))
    (s := controllerOf ℚ (.oneDriver [] [.actuate 0 true]) .release (fun _ => none)
      [.accepting 1, .driverStatusListen 1, .emergencyStop] (.new [false]))
    (P := fun _ s => decide (s.shared.shared.toDash.dashChannel.val = some []) &&
      decide (s.shared.shared.driverLines.val = [true]))
    (by decide +kernel)
  simp only [Bool.and_eq_true, decide_eq_true_eq] at hp
  obtain ⟨hunblocked, -⟩ := shutoff_unblocked_unless_logged ℚ (.oneDriver [] [.actuate 0 true])
    .release (fun _ => none) [.accepting 1, .driverStatusListen 1, .emergencyStop] (.new [false])
  exact ⟨t, s, hrun, hp.1, hp.2, hunblocked t s hrun⟩

/-- **A shutoff that waits for the dashboard**: a client has connected, `driver_status_listen` is
in the middle of its write to it, and the emergency stop waits for the driver lines. -/
theorem stop_waits_for_dashboard : ∃ t s,
    ControllerRun ℚ (.oneDriver [] [.actuate 0 true]) .release (fun _ => none) (fun _ _ _ => True)
      [.accepting 1, .driverStatusListen 1, .emergencyStop] (.new [false]) t s ∧
    Locks.WaitsFor t s 2 1 ∧ s.threads[1]?.bind Prog.pending = some (.op (.send (.driverValue [false]))) ∧
    s.shared.shared.toDash.dashChannel.val = some [] ∧ ¬ ShutoffUnblocked t s := by
  obtain ⟨t, s, hrun, hp⟩ := exists_guardedRun (M := controller (.oneDriver [] [.actuate 0 true]))
    (G := fun t s e => Locks.Grants t s e ∧ True)
    (fun t s e h => ⟨Locking.grants_of_grants h, trivial⟩)
    (List.replicate 9 (0, World.fine) ++ List.replicate 12 (1, World.fine)
      ++ List.replicate 3 (2, World.fine))
    (s := controllerOf ℚ (.oneDriver [] [.actuate 0 true]) .release (fun _ => none)
      [.accepting 1, .driverStatusListen 1, .emergencyStop] (.new [false]))
    (P := fun t s =>
      decide (s.threads[1]?.bind Prog.pending = some (Act.op (.send (.driverValue [false])))) &&
      decide ((Lock.driverLines, Mode.exclusive) ∈ Locks.held (history 1 t)) &&
      decide ((Lock.dashChannel, Mode.exclusive) ∈ Locks.held (history 1 t)) &&
      decide (s.shared.shared.toDash.dashChannel.val = some []) &&
      decide (s.threads[2]?.bind Prog.pending
        = some (Act.acquire .driverLines .exclusive)))
    (by decide +kernel)
  simp only [Bool.and_eq_true, decide_eq_true_eq] at hp
  obtain ⟨⟨⟨⟨h₁, hlines⟩, hchannel⟩, hval⟩, h₂⟩ := hp
  have hholds := Locking.holds_of_pending h₁ hlines
  refine ⟨t, s, hrun, ⟨.driverLines, .exclusive, .exclusive, ?_, hholds⟩, h₁, hval, fun h => ?_⟩
  · exact Locking.requests_of_pending h₂ rfl
  · exact (h.drivers 1 _ hholds).2 _ (Locking.holds_of_pending h₁ hchannel)

end Slonk
