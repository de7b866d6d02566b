/-
# The status of the drivers

`driver_status_listen` reads the driver lines one after another, keeps what it has for a line that
cannot be read, and writes what it then has to its log and to the dashboard.  Meanwhile other threads
write to the lines.

It has the mutex of the lines from before the first read until after the message, and everybody who
writes to a line has it too (`holds_of_write`).  So as long as it reads, nothing changes
(`seen_of_run`): where no read fails, the sample is what the levels are at the moment it is logged, and
at the moment it is sent (`driver_samples_are_snapshots`).  A line whose read has failed is reported as
it was last read.
-/
import Slonk.Nesting

namespace Slonk

open Concurrency

variable {ε α β : Type}

/-! ## 1. The record -/

/-- What `driver_status_listen` has done. -/
structure DriverRecord where
  /-- It has the guard of the driver lines. -/
  guarded : Bool
  /-- the reads since it took it, with their drivers -/
  reads : List (Nat × Except Unit Bool)
  /-- the reads that succeeded, all of them -/
  succeeded : List (Nat × Bool)
  /-- the row logged since it took the guard -/
  row : Option (List Bool)
  deriving DecidableEq

namespace DriverRecord

/-- Nothing has been done. -/
def start : DriverRecord := ⟨false, [], [], none⟩

/-- A line is read. -/
def read (γ : DriverRecord) (driverIdx : Nat) (result : Except Unit Bool) : DriverRecord :=
  { γ with
    reads := γ.reads ++ [(driverIdx, result)]
    succeeded := match result with
      | .ok value => γ.succeeded ++ [(driverIdx, value)]
      | .error () => γ.succeeded }

/-- A call is made. -/
def next (γ : DriverRecord) : Call Act.Ans → DriverRecord
  | ⟨.acquire .driverLines .exclusive, _⟩ => { γ with guarded := true, reads := [], row := none }
  | ⟨.release .driverLines, _⟩ => { γ with guarded := false }
  | ⟨.readLine driverIdx, some result⟩ => γ.read driverIdx result
  | ⟨.writeDriverLog _ driverStates, some (.ok ())⟩ => { γ with row := some driverStates }
  | _ => γ

/-- What the last successful read of a line said, `false` if there was none. -/
def value (γ : DriverRecord) (driverIdx : Nat) : Bool :=
  (γ.succeeded.filter (·.1 = driverIdx)).getLast?.elim false Prod.snd

/-- The same of each line. -/
def values (γ : DriverRecord) (size : Nat) : List Bool := (List.range size).map γ.value

theorem value_read_ok (γ : DriverRecord) (driverIdx : Nat) (value : Bool) :
    (γ.read driverIdx (.ok value)).value = Function.update γ.value driverIdx value := by
  funext idx
  unfold DriverRecord.value DriverRecord.read
  rw [List.filter_append]
  by_cases h : driverIdx = idx
  · subst h
    simp
  · have hnil : [(driverIdx, value)].filter (·.1 = idx) = [] := by simp [h]
    rw [hnil, List.append_nil, Function.update_of_ne (Ne.symm h)]

/-- A line that is read moves its entry. -/
theorem values_read_ok {γ : DriverRecord} {size driverIdx : Nat} (value : Bool) :
    (γ.read driverIdx (.ok value)).values size = (γ.values size).set driverIdx value := by
  unfold values
  rw [value_read_ok]
  refine List.ext_getElem (by simp) fun idx h₁ h₂ => ?_
  simp only [List.getElem_map, List.getElem_range, List.getElem_set]
  by_cases h : driverIdx = idx
  · subst h
    simp
  · rw [if_neg h, Function.update_of_ne (Ne.symm h)]

end DriverRecord

/-- The record of these calls. -/
def driverRecord (h : List (Call Act.Ans)) : DriverRecord := h.foldl DriverRecord.next .start

theorem driverRecord_concat (h : List (Call Act.Ans)) (c : Call Act.Ans) :
    driverRecord (h ++ [c]) = (driverRecord h).next c := by
  simp [driverRecord]

/-- **Whoever has the guard** holds the lock. -/
theorem mem_held_of_guarded {h : List (Call Act.Ans)} (hg : (driverRecord h).guarded = true) :
    (Lock.driverLines, Mode.exclusive) ∈ Locks.held h := by
  induction h using List.reverseRecOn with
  | nil => cases hg
  | append_singleton h c ih =>
    have hheld : Locks.held (h ++ [c]) = Locks.next (Locks.held h) c := by
      simp [Locking.held]
    rw [driverRecord_concat] at hg
    rw [hheld]
    obtain ⟨a, x⟩ := c
    cases a with
    | acquire l mode =>
      show _ ∈ (l, mode) :: Locks.held h
      cases l with
      | driverLines =>
        cases mode with
        | exclusive => exact List.mem_cons_self
        | shared => exact List.mem_cons_of_mem _ (ih hg)
      | _ => exact List.mem_cons_of_mem _ (ih hg)
    | release l =>
      show _ ∈ (Locks.held h).eraseP (·.1 = l)
      cases l with
      | driverLines => cases hg
      | _ => exact (List.mem_eraseP_of_neg (by simp)).mpr (ih hg)
    | readLine driverIdx =>
      cases x with
      | none => exact ih hg
      | some result => exact ih hg
    | writeDriverLog readTime driverStates =>
      rcases x with _ | e | u
      · exact ih hg
      · exact ih hg
      · exact ih hg
    | _ => exact ih hg

/-! ## 2. Who writes to a line -/

/-- The operations that write to a driver line. -/
def Act.Writes : Act → Prop
  | op (.write _ _) => True
  | _ => False

theorem Act.Writes.exists {a : Act} (h : a.Writes) :
    ∃ driverId value, a = .op (.write driverId value) := by
  cases a with
  | op o =>
    cases o with
    | write driverId value => exact ⟨driverId, value, rfl⟩
    | _ => exact h.elim
  | _ => exact h.elim

/-- A line is written to with its guard. -/
def writing : Protocol Act Act.Ans DriverRecord where
  permits γ a := a.Writes → γ.guarded = true
  aborts _ := True
  next := DriverRecord.next

/-- The program writes to lines with their guard only, whatever it has done before. -/
def WritesGuarded (p : Prog Act Act.Ans α) : Prop :=
  ∀ γ, p.Follows writing (fun _ _ => True) γ fun _ _ => True

theorem writesGuarded_ret (a : α) : WritesGuarded (.ret a) := fun _ => trivial

theorem writesGuarded_op {a : Act} (ha : ¬ a.Writes) {k : a.Ans → Prog Act Act.Ans α}
    (hk : ∀ x, WritesGuarded (k x)) : WritesGuarded (.op a k) := fun _ =>
  ⟨fun h => absurd h ha, fun x _ => hk x _⟩

theorem writesGuarded_seq {p : Prog Act Act.Ans α} {f : α → Prog Act Act.Ans β}
    (hp : WritesGuarded p) (hf : ∀ a, WritesGuarded (f a)) : WritesGuarded (p.bind f) := fun γ =>
  Prog.Follows.bind ((hp γ).mono fun a γ' _ => hf a γ')

theorem writesGuarded_bind {p : Routine ε α} {f : α → Routine ε β} (hp : WritesGuarded p.run)
    (hf : ∀ a, WritesGuarded (f a).run) : WritesGuarded (p >>= f).run := fun γ =>
  Fallible.follows_bind (hp γ) (fun a γ' _ => hf a γ') fun _ _ _ => trivial

theorem writesGuarded_of_all {p : Prog Act Act.Ans α} (hp : p.All fun a => ¬ a.Writes) :
    WritesGuarded p := by
  induction p with
  | ret a => exact writesGuarded_ret a
  | panic => exact fun _ => trivial
  | op a k ih => exact writesGuarded_op hp.1 fun x => ih x (hp.2 x)

/-- What every thread may do is not a write. -/
theorem not_writes_of_common {a : Act} (h : a.Common) : ¬ a.Writes := by
  intro hw
  obtain ⟨driverId, value, rfl⟩ := hw.exists
  exact h

theorem writesGuarded_log (guards : List Lock) (level : LogLevel) (message : UserMessage) :
    WritesGuarded (Routine.log guards level message).run :=
  writesGuarded_of_all ((writeLog_all (fun _ h => not_writes_of_common h.common) guards level message).bind
    fun _ => trivial)

/-- **The operations of `Operations.lean`, with their locks.** -/
theorem writesGuarded_critical (o : Op) : WritesGuarded (critical o) := by
  by_cases ho : (Act.op o).Writes
  · obtain ⟨driverId, value, h⟩ := ho.exists
    obtain rfl := Act.op.inj h
    -- the lines have just been locked
    exact fun γ => ⟨nofun, fun _ _ => ⟨fun _ => rfl, fun _ _ => ⟨nofun, fun _ _ => trivial⟩⟩⟩
  · exact writesGuarded_of_all (critical_all (fun _ h => not_writes_of_common h.common) ho)

theorem writesGuarded_expand (p : Prog Op Op.Ans α) : WritesGuarded (p.expand critical) := by
  induction p with
  | ret a => exact writesGuarded_ret a
  | panic => exact fun _ => trivial
  | op o k ih => exact writesGuarded_seq (writesGuarded_critical o) ih

theorem writesGuarded_accepting (config : Configuration) (profile : Profile)
    (fromSlice : List UInt8 → Option Command) (turns : Nat) :
    WritesGuarded (accepting config profile fromSlice turns).run := by
  have hserve : ∀ src, WritesGuarded (serve config profile fromSlice src).run := fun src =>
    writesGuarded_seq (writesGuarded_expand (handleClient config profile fromSlice src).run) fun _ =>
      writesGuarded_ret _
  have hturn : WritesGuarded (acceptTurn config profile fromSlice ()).run := by
    refine writesGuarded_bind (writesGuarded_op (a := .accept) id fun _ => writesGuarded_ret _) ?_
    rintro (e | src)
    · exact writesGuarded_bind (writesGuarded_log _ _ _) fun _ => writesGuarded_ret _
    · refine writesGuarded_bind (writesGuarded_op (a := .peerAddr) id fun _ => writesGuarded_ret _)
        fun address => ?_
      refine writesGuarded_bind (writesGuarded_log _ _ _) fun _ => ?_
      refine writesGuarded_bind (writesGuarded_op (a := .tryClone) id fun _ => writesGuarded_ret _)
        fun _ => ?_
      refine writesGuarded_bind ?_ fun _ => writesGuarded_ret _
      refine writesGuarded_bind (writesGuarded_of_all
        (.guarded id (fun _ => ⟨id, fun _ => trivial⟩) id)) fun _ => ?_
      exact writesGuarded_bind (writesGuarded_log _ _ _) fun _ => hserve src
  refine fun γ => Fallible.follows_loop (I := fun _ _ => True) (fun _ γ _ => (hturn γ).mono ?_)
    (fun _ _ _ => trivial) turns trivial
  rintro (e | (u | n)) _ _
  · trivial
  · trivial
  · trivial

/-- **Every thread writes to lines with their guard.** -/
theorem program_writesGuarded (F : Type) [F64 F] (config : Configuration) (profile : Profile)
    (fromSlice : List UInt8 → Option Command) (thread : Thread) :
    WritesGuarded (thread.program F config profile fromSlice) := by
  have hall := thread.program_all F config profile fromSlice
  cases thread with
  | accepting turns =>
    exact writesGuarded_seq (writesGuarded_accepting config profile fromSlice turns) fun _ =>
      writesGuarded_ret ()
  | handleCommand cmd => exact writesGuarded_expand _
  | emergencyStop => exact writesGuarded_expand _
  | sensorListen groupId logFiles turns =>
    refine writesGuarded_of_all (hall.mono fun a ha hw => ?_)
    obtain ⟨driverId, value, rfl⟩ := hw.exists
    exact ha.elim id id
  | driverStatusListen turns =>
    refine writesGuarded_of_all (hall.mono fun a ha hw => ?_)
    obtain ⟨driverId, value, rfl⟩ := hw.exists
    exact ha.elim id id
  | heartbeat turns =>
    refine writesGuarded_of_all (hall.mono fun a ha hw => ?_)
    obtain ⟨driverId, value, rfl⟩ := hw.exists
    rcases ha with ha | ⟨value, ha⟩
    · exact ha
    · cases ha

theorem fork_writesGuarded {config : Configuration} {a : Act} {p : Prog Act Act.Ans Unit}
    (h : (controller config).fork a = some p) : WritesGuarded p := by
  rcases controller_fork h with ⟨cmd, rfl⟩ | rfl
  · exact writesGuarded_expand _
  · exact writesGuarded_expand _

/-! ## 3. The thread that reads them -/

/-- With the guard, each of so many lines has been read, and this is what is known of them. -/
def DriverRecord.Reports (γ : DriverRecord) (size : Nat) (driverStates : List Bool) : Prop :=
  γ.guarded = true ∧ γ.reads.map Prod.fst = List.range size ∧ driverStates = γ.values size

/-- What the record allows, of so many lines. -/
def DriverRecord.Permits (size : Nat) (γ : DriverRecord) : Act → Prop
  | .writeDriverLog _ driverStates => γ.Reports size driverStates
  | .op (.send message) => ∃ driverStates, message = .driverValue driverStates ∧
      γ.row = some driverStates ∧ γ.Reports size driverStates
  | .op (.write _ _) => False
  | _ => True

/-- The record of `driver_status_listen`, and what it allows. -/
def reporting (size : Nat) : Protocol Act Act.Ans DriverRecord where
  permits γ := γ.Permits size
  aborts _ := True
  next := DriverRecord.next

/-- The answers over so many lines. -/
def Counts (size : Nat) : (a : Act) → a.Ans → Prop
  | .lineCount, count => count = size
  | _, _ => True

/-- What follows a result. -/
def IfOk (Q : α → DriverRecord → Prop) (r : Except RunError α) (γ : DriverRecord) : Prop :=
  match r with
  | .ok a => Q a γ
  | .error _ => True

section Walk

variable {size : Nat} {γ : DriverRecord}

/-- The program does what the record allows. -/
abbrev Reported (size : Nat) (γ : DriverRecord) (p : Prog Act Act.Ans α)
    (Q : α → DriverRecord → Prop) : Prop := p.Follows (reporting size) (Counts size) γ Q

theorem reported_bind {p : Routine RunError α} {f : α → Routine RunError β}
    {P : α → DriverRecord → Prop} {Q : Except RunError β → DriverRecord → Prop}
    (hp : Reported size γ p.run (IfOk P))
    (hf : ∀ a γ', P a γ' → Reported size γ' (f a).run Q)
    (herr : ∀ e γ', Q (.error e) γ' := by exact fun _ _ => trivial) :
    Reported size γ (p >>= f).run Q :=
  Fallible.follows_bind hp hf fun e γ' _ => herr e γ'

/-- The operations the record does not mind. -/
def Act.Aside : Act → Prop
  | acquire .driverLines _ | release .driverLines | readLine _ | writeDriverLog _ _ => False
  | op (.send _) | op (.write _ _) => False
  | _ => True

theorem reported_aside {a : Act} (ha : a.Aside) {k : a.Ans → Prog Act Act.Ans α}
    {Q : α → DriverRecord → Prop} (hk : ∀ x, Reported size γ (k x) Q) :
    Reported size γ (.op a k) Q := by
  have hpermits : γ.Permits size a := by
    unfold Act.Aside at ha
    unfold DriverRecord.Permits
    split <;> trivial
  have hnext : ∀ x, γ.next ⟨a, some x⟩ = γ := by
    intro x
    cases a with
    | acquire l mode =>
      cases l with
      | driverLines => exact ha.elim
      | _ => rfl
    | release l =>
      cases l with
      | driverLines => exact ha.elim
      | _ => rfl
    | readLine driverIdx => exact ha.elim
    | writeDriverLog readTime driverStates => exact ha.elim
    | _ => rfl
  refine ⟨hpermits, fun x _ => ?_⟩
  show Reported size (γ.next ⟨a, some x⟩) (k x) Q
  rw [hnext]
  exact hk x

theorem reported_guarded {l : Lock} {mode : Mode} {p : Bool → Prog Act Act.Ans α}
    {Q : α → DriverRecord → Prop} (hacquire : (Act.acquire l mode).Aside)
    (hrelease : (Act.release l).Aside) (hp : ∀ poisoned, Reported size γ (p poisoned) Q) :
    Reported size γ (Prog.guarded (.acquire l mode) p (.release l)) Q :=
  reported_aside hacquire fun poisoned => Prog.Follows.bind ((hp poisoned).mono fun _ _ hr =>
    reported_aside hrelease fun _ => hr)

theorem reported_status :
    Reported size γ Routine.status.run (IfOk fun _ γ' => γ' = γ) := by
  refine reported_guarded trivial trivial fun _ => reported_aside (a := .status) trivial fun r => ?_
  cases r with
  | ok state => rfl
  | error e => trivial

theorem reported_writeLog (guards : List Lock) (level : LogLevel) (message : UserMessage) :
    Reported size γ (writeLog guards level message) fun _ γ' => γ' = γ := by
  refine reported_guarded trivial trivial fun poisoned => ?_
  cases poisoned with
  | true => exact reported_aside (a := .unwind guards) trivial fun x => nomatch x
  | false => exact reported_aside (a := .op (.userLog level message)) trivial fun _ => rfl

theorem reported_log (guards : List Lock) (level : LogLevel) (message : UserMessage) :
    Reported size γ (Routine.log guards level message).run (IfOk fun _ γ' => γ' = γ) := by
  refine Prog.Follows.bind ((reported_writeLog guards level message).mono ?_)
  rintro (e | u) γ' h
  · trivial
  · exact h

/-- **One line** is read. -/
theorem reported_read {driverStates : List Bool} (hstates : driverStates = γ.values size)
    (driverIdx : Nat) : Reported size γ (do
      match ← Fallible.call (Act.readLine driverIdx) with
      | .ok readValue => pure (driverStates.set driverIdx readValue)
      | .error () =>
        Routine.log [.driverLines] .warn (.unreadableDriver driverIdx)
        pure driverStates : Routine RunError (List Bool)).run
      (IfOk fun driverStates γ' => driverStates = γ'.values size ∧ γ'.guarded = γ.guarded ∧
        γ'.reads.map Prod.fst = γ.reads.map Prod.fst ++ [driverIdx]) := by
  have hreads : ∀ result, (γ.read driverIdx result).reads.map Prod.fst
      = γ.reads.map Prod.fst ++ [driverIdx] := fun result => by
    simp [DriverRecord.read]
  refine ⟨trivial, fun result _ => ?_⟩
  show Reported size (γ.read driverIdx result) _ _
  match result with
  | .ok readValue =>
    refine ⟨?_, rfl, hreads _⟩
    rw [hstates, DriverRecord.values_read_ok]
  | .error () =>
    refine reported_bind (reported_log _ _ _) ?_
    rintro _ _ rfl
    exact ⟨hstates, rfl, hreads _⟩

/-- **The lines are read**, by induction on the rest of them. -/
theorem reported_readDrivers {driverStates : List Bool} (hstates : driverStates = γ.values size)
    (hg : γ.guarded = true) (hreads : γ.reads = []) :
    Reported size γ (readDrivers driverStates).run
      (IfOk fun driverStates γ' => γ'.Reports size driverStates) := by
  have hsize : driverStates.length = size := by
    simp [hstates, DriverRecord.values]
  unfold readDrivers
  rw [hsize]
  have hgen : ∀ (rest done : List Nat) (γ : DriverRecord) (driverStates : List Bool),
      done ++ rest = List.range size → γ.guarded = true → γ.reads.map Prod.fst = done →
      driverStates = γ.values size →
      Reported size γ (rest.foldlM (fun driverStates driverIdx => do
        match ← Fallible.call (Act.readLine driverIdx) with
        | .ok readValue => pure (driverStates.set driverIdx readValue)
        | .error () =>
          Routine.log [.driverLines] .warn (.unreadableDriver driverIdx)
          pure driverStates) driverStates : Routine RunError (List Bool)).run
        (IfOk fun driverStates γ' => γ'.Reports size driverStates) := by
    intro rest
    induction rest with
    | nil =>
      intro done γ driverStates hdone hg hreads hstates
      rw [List.append_nil] at hdone
      exact ⟨hg, hreads.trans hdone, hstates⟩
    | cons driverIdx rest ih =>
      intro done γ driverStates hdone hg hreads hstates
      rw [List.foldlM_cons]
      refine reported_bind (reported_read hstates driverIdx) ?_
      rintro driverStates' γ' ⟨hstates', hg', hreads'⟩
      refine ih (done ++ [driverIdx]) γ' driverStates' ?_ (hg'.trans hg) ?_ hstates'
      · rw [List.append_assoc]
        exact hdone
      · rw [hreads', hreads]
  exact hgen _ [] γ driverStates rfl hg (by rw [hreads]; rfl) hstates

/-- **A sample is sent** that has been logged. -/
theorem reported_send {driverStates : List Bool} (hrow : γ.row = some driverStates)
    (h : γ.Reports size driverStates) :
    Reported size γ (Routine.send (.driverValue driverStates)).run (IfOk fun _ γ' => γ' = γ) := by
  have hsend : Reported size γ (critical (.send (.driverValue driverStates))) fun _ γ' => γ' = γ := by
    refine reported_guarded trivial trivial fun poisoned => ?_
    cases poisoned with
    | true => exact rfl
    | false =>
      refine reported_guarded trivial trivial fun _ => ⟨⟨driverStates, rfl, hrow, h⟩, fun _ _ => ?_⟩
      exact rfl
  refine Prog.Follows.bind (hsend.mono ?_)
  rintro (e | u) γ' hγ
  · trivial
  · exact hγ

/-- **A sample**: the reads, the row and the message. -/
theorem reported_statusLocked {driverStates : List Bool} (hstates : driverStates = γ.values size)
    (hg : γ.guarded = true) (hreads : γ.reads = []) (readTime : Nat) :
    Reported size γ (statusLocked readTime driverStates).run
      (IfOk fun driverStates γ' => driverStates = γ'.values size) := by
  refine reported_bind (reported_readDrivers hstates hg hreads) fun driverStates γ' hreports => ?_
  refine ⟨hreports, fun result _ => ?_⟩
  match result with
  | .error () => trivial
  | .ok () =>
    refine reported_bind (γ := { γ' with row := some driverStates })
      (reported_send rfl hreports) ?_
    rintro _ _ rfl
    exact hreports.2.2

/-- The variable at the head of each turn. -/
def AtTurn (size : Nat) (driverStates : List Bool) (γ : DriverRecord) : Prop :=
  driverStates = γ.values size

theorem reported_statusTurn {driverStates : List Bool} (hstates : AtTurn size driverStates γ)
    (sleepTime : Duration) :
    Reported size γ (statusTurn sleepTime driverStates).run
      (Fallible.Turns (AtTurn size) fun _ _ => True) := by
  refine reported_bind reported_status ?_
  rintro state γ rfl
  split
  · trivial
  refine reported_aside (a := .op .now) trivial fun readTime => ?_
  refine reported_bind (P := AtTurn size) ?_ fun driverStates γ' hstates' => ?_
  · -- the guard is taken, and dropped whatever happens
    refine ⟨trivial, fun poisoned _ => Prog.Follows.bind (Prog.Follows.mono
      (Q := IfOk (AtTurn size)) ?_ ?_)⟩
    · cases poisoned with
      | true =>
        refine Prog.Follows.bind (Prog.Follows.bind ((reported_writeLog _ _ _).mono ?_))
        exact fun _ _ _ => trivial
      | false =>
        exact reported_statusLocked (γ := { γ with guarded := true, reads := [], row := none })
          hstates rfl rfl readTime
    · rintro (e | driverStates) γ' h
      · exact ⟨trivial, fun _ _ => trivial⟩
      · exact ⟨trivial, fun _ _ => h⟩
  · exact reported_aside (a := .op (.sleep sleepTime)) trivial fun _ => hstates'

/-- **`driver_status_listen` does what its record allows.** -/
theorem reported_driverStatusListen (config : Configuration) (turns : Nat) :
    Reported size .start (driverStatusListen config turns).run fun _ _ => True := by
  unfold driverStatusListen
  split
  · trivial
  refine reported_bind (P := fun count γ' => count = size ∧ γ'.succeeded = []) ?_ ?_
  · refine ⟨trivial, fun poisoned _ => ?_⟩
    cases poisoned with
    | true => exact ⟨trivial, fun _ _ => trivial⟩
    | false => exact ⟨trivial, fun count hcount => ⟨trivial, fun _ _ => ⟨hcount, rfl⟩⟩⟩
  · rintro _ γ' ⟨rfl, hsucceeded⟩
    refine Fallible.follows_bind (Fallible.follows_loop (I := AtTurn _) (Q := fun _ _ => True)
      (fun driverStates γ h => reported_statusTurn h _) (fun _ _ _ => trivial) turns ?_)
      (fun _ _ _ => trivial) fun _ _ _ => trivial
    -- nothing has been read, and the variable is `false` everywhere
    refine List.ext_getElem (by simp [DriverRecord.values]) fun idx h₁ h₂ => ?_
    simp [DriverRecord.values, DriverRecord.value, hsucceeded]

end Walk

/-! ## 4. The lines in a run -/

/-- **An operation that does not write** to a line leaves the levels as they are. -/
theorem levels_of_exec {a : Act} (ha : ¬ a.Writes) (w : World) (c : Controller) :
    (a.exec w c).2.shared.driverLines.val = c.shared.driverLines.val := by
  cases a with
  | unwind guards =>
    exact Controller.foldl_poison (f := fun c => c.shared.driverLines.val)
      (fun _ l => by cases l <;> rfl) guards c
  | op o =>
    exact congrArg Locked.val (exec_driverLines (fun driverId value h =>
      ha (by rw [h]; trivial)) w.toEnv c.shared)
  | readLine driverIdx =>
    simp only [Act.exec]
    split <;> rfl
  | heartbeat value =>
    simp only [Act.exec]
    split <;> rfl
  | _ => rfl

/-- What the reads since the guard was taken have said is still known, and is how the lines are. -/
def DriverRecord.Seen (γ : DriverRecord) (lines : List Bool) : Prop :=
  ∀ read ∈ γ.reads, ∀ value, read.2 = .ok value →
    γ.value read.1 = value ∧ lines[read.1]? = some value

theorem DriverRecord.Seen.read_error {γ : DriverRecord} {lines : List Bool} (h : γ.Seen lines)
    (driverIdx : Nat) : (γ.read driverIdx (.error ())).Seen lines := by
  intro read hread value hvalue
  rcases List.mem_append.mp hread with hread | hread
  · exact h read hread value hvalue
  · rw [List.mem_singleton.mp hread] at hvalue
    cases hvalue

/-- A line that was read before is as it was then. -/
theorem DriverRecord.Seen.read_ok {γ : DriverRecord} {lines : List Bool} (h : γ.Seen lines)
    {driverIdx : Nat} {value : Bool} (hline : lines[driverIdx]? = some value) :
    (γ.read driverIdx (.ok value)).Seen lines := by
  intro read hread value' hvalue
  rw [DriverRecord.value_read_ok]
  rcases List.mem_append.mp hread with hread | hread
  · obtain ⟨hlast, hline'⟩ := h read hread value' hvalue
    refine ⟨?_, hline'⟩
    by_cases heq : read.1 = driverIdx
    · rw [heq, Function.update_self]
      rw [heq, hline] at hline'
      exact Option.some.inj hline'
    · rw [Function.update_of_ne heq]
      exact hlast
  · obtain rfl := List.mem_singleton.mp hread
    obtain rfl : value = value' := Except.ok.inj hvalue
    exact ⟨Function.update_self _ _ _, hline⟩

/-- **One call** of the thread, which does not write. -/
theorem DriverRecord.Seen.next {γ : DriverRecord} {a : Act} {w : World} {c : Controller}
    (h : a ≠ .acquire .driverLines .exclusive → γ.Seen c.shared.driverLines.val)
    (ha : ¬ a.Writes) :
    (γ.next ⟨a, (a.exec w c).1⟩).Seen (a.exec w c).2.shared.driverLines.val := by
  rw [levels_of_exec ha]
  cases a with
  | acquire l mode =>
    cases l with
    | driverLines =>
      cases mode with
      | exclusive => exact fun _ hread => absurd hread List.not_mem_nil
      | shared => exact h (by simp)
    | _ => exact h (by simp)
  | release l =>
    cases l with
    | driverLines => exact h (by simp)
    | _ => exact h (by simp)
  | writeDriverLog readTime driverStates =>
    have hseen := h (by simp)
    rcases ((Act.writeDriverLog readTime driverStates).exec w c).1 with _ | (_ | _)
    · exact hseen
    · exact hseen
    · exact hseen
  | readLine driverIdx =>
    have hseen := h (by simp)
    simp only [Act.exec]
    split
    · rename_i value hline
      cases w.lineReadFails with
      | true => exact hseen.read_error driverIdx
      | false => exact hseen.read_ok hline
    · exact hseen.read_error driverIdx
  | _ => exact h (by simp)

section Runs

variable {F : Type} [F64 F] {config : Configuration} {profile : Profile}
  {fromSlice : List UInt8 → Option Command} {threads : List Thread} {c : Controller}
  {t : List (Event Act.Ans)} {s : Sys Act Act.Ans Controller}

/-- **Who is about to write to a line** holds the lines. -/
theorem holds_of_write
    (hrun : Run (controller config) (controllerOf F config profile fromSlice threads c) t s)
    {j : Nat} {a : Act} {k : a.Ans → Prog Act Act.Ans Unit} (hk : s.threads[j]? = some (.op a k))
    (ha : a.Writes) : Locks.Holds t s j .driverLines .exclusive := by
  have hs : ∀ p ∈ (controllerOf F config profile fromSlice threads c).threads,
      p.Follows writing (fun _ _ => True) .start fun _ _ => True := by
    intro p hp
    obtain ⟨thread, -, rfl⟩ := List.mem_map.mp hp
    exact program_writesGuarded F config profile fromSlice thread _
  rcases hrun.follows hs (fun _ _ h => fork_writesGuarded h _) (fun _ _ _ _ => trivial) hk with
    ⟨hpanic, -⟩ | hfollows
  · cases hpanic
  · exact ⟨_, hk, id, mem_held_of_guarded (hfollows.1 ha)⟩

theorem length_of_run
    (hrun : Run (controller config) (controllerOf F config profile fromSlice threads c) t s) :
    s.shared.shared.driverLines.val.length = c.shared.driverLines.val.length := by
  induction hrun with
  | refl => rfl
  | tail _ hs ih =>
    obtain ⟨w, -, hshared⟩ := hs.exec
    rw [hshared]
    exact (length_exec _ _ _).trans ih

/-- The lines are counted right. -/
theorem counts_of_run
    (hrun : Run (controller config) (controllerOf F config profile fromSlice threads c) t s) :
    ∀ e ∈ t, ∀ x, e.call.ans = some x → Counts c.shared.driverLines.val.length e.call.op x := by
  intro e he x hx
  obtain ⟨t₁, t₂, rfl⟩ := List.append_of_mem he
  obtain ⟨m, m', hmoment⟩ := hrun.moment
  obtain ⟨w, hans, -⟩ := hmoment.step.exec
  have hlength := length_of_run hmoment.before
  obtain ⟨i, a, ans⟩ := e
  cases a with
  | lineCount =>
    obtain rfl := Option.some.inj (hans.symm.trans hx)
    exact hlength
  | _ => trivial

/-- What a thread of the run is about to do, its record allows. -/
theorem permits_of_status
    (hrun : ControllerRun F config profile fromSlice (fun _ _ _ => True) threads c t s) {i turns : Nat}
    (hi : threads[i]? = some (.driverStatusListen turns)) {a : Act}
    {k : a.Ans → Prog Act Act.Ans Unit} (hk : s.threads[i]? = some (.op a k)) :
    (driverRecord (history i t)).Permits c.shared.driverLines.val.length a := by
  obtain ⟨p, hp, hsteps⟩ := hrun.routine hi rfl
  have hreported : Reported c.shared.driverLines.val.length .start
      (driverStatusListen config turns).run fun _ _ => True := reported_driverStatusListen config turns
  have hfollows := hreported.steps hsteps fun call hcall x hx => by
    obtain ⟨e, he, -, rfl⟩ := mem_history.mp hcall
    exact counts_of_run hrun.run e he x hx
  rcases hfollows with ⟨rfl, -⟩ | hfollows
  · cases Option.some.inj (hk.symm.trans hp)
  · have hdiscard : p.discard.Follows (reporting c.shared.driverLines.val.length)
        (Counts c.shared.driverLines.val.length) (driverRecord (history i t)) fun _ _ => True :=
      Prog.Follows.discard hfollows
    rw [← Option.some.inj (hk.symm.trans hp)] at hdiscard
    exact hdiscard.1

/-- **While the thread holds the lines** they are as it has read them. -/
theorem seen_of_run
    (hrun : ControllerRun F config profile fromSlice (fun _ _ _ => True) threads c t s) {i turns : Nat}
    (hi : threads[i]? = some (.driverStatusListen turns))
    (hholds : Locks.Holds t s i .driverLines .exclusive) :
    (driverRecord (history i t)).Seen s.shared.shared.driverLines.val := by
  induction hrun with
  | refl => exact fun _ hread => absurd hread List.not_mem_nil
  | @tail m m' t e hr hs hg ih =>
    obtain ⟨tid, a, x⟩ := e
    obtain ⟨k, hk, -⟩ := hs.self
    obtain ⟨w, hans, hshared⟩ := hs.exec
    have hbefore := hholds.before hr.run hs
    rw [hshared]
    by_cases htid : tid = i
    · subst htid
      obtain rfl : x = (a.exec w m.shared).1 := hans
      rw [show history tid (t ++ [⟨tid, a, _⟩]) = history tid t ++ [⟨a, _⟩] from
        history_concat_self t ⟨tid, a, _⟩, driverRecord_concat]
      refine DriverRecord.Seen.next (fun hne => ih (hbefore.resolve_right ?_)) fun hw => ?_
      · rintro ⟨-, hacq⟩
        cases a with
        | acquire l mode => cases hacq; exact hne rfl
        | _ => cases hacq
      · obtain ⟨driverId, value, rfl⟩ := hw.exists
        exact permits_of_status hr hi hk
    · rw [history_concat_other t (e := ⟨tid, a, x⟩) htid]
      have hi' : Locks.Holds t m i .driverLines .exclusive :=
        hbefore.resolve_right fun h => htid h.1.symm
      -- whoever writes holds the lines, and there is one who does
      have ha : ¬ a.Writes := fun hw => htid (hi'.exclusive hr (holds_of_write hr.run hk hw))
      exact (levels_of_exec ha w m.shared).symm ▸ ih hi'

end Runs

/-! ## 5. The samples -/

/-- What is reported of these lines is a sample of them. -/
structure IsSample (γ : DriverRecord) (lines driverStates : List Bool) : Prop where
  /-- It has one entry for each line. -/
  length : driverStates.length = lines.length
  /-- Each line has been read once since the guard was taken. -/
  reads : γ.reads.map Prod.fst = List.range lines.length
  /-- If no read has failed, it is what the levels are. -/
  snapshot : (∀ read ∈ γ.reads, read.2 ≠ .error ()) → driverStates = lines
  /-- Each entry is what the last successful read of its line said. -/
  last : ∀ driverIdx < lines.length, driverStates[driverIdx]? = some (γ.value driverIdx)

theorem isSample_of_reports {γ : DriverRecord} {lines driverStates : List Bool}
    (h : γ.Reports lines.length driverStates) (hseen : γ.Seen lines) :
    IsSample γ lines driverStates := by
  obtain ⟨-, hreads, rfl⟩ := h
  have hlast : ∀ driverIdx < lines.length,
      (γ.values lines.length)[driverIdx]? = some (γ.value driverIdx) := by
    intro driverIdx hlt
    simp [DriverRecord.values, hlt]
  refine ⟨by simp [DriverRecord.values], hreads, fun hok => ?_, hlast⟩
  refine List.ext_getElem? fun driverIdx => ?_
  by_cases hlt : driverIdx < lines.length
  · rw [hlast driverIdx hlt]
    obtain ⟨⟨driverIdx, result⟩, hread, rfl⟩ :=
      List.mem_map.mp (hreads ▸ List.mem_range.mpr hlt)
    match result with
    | .error () => exact absurd rfl (hok _ hread)
    | .ok value =>
      obtain ⟨hvalue, hline⟩ := hseen _ hread value rfl
      exact (congrArg some hvalue).trans hline.symm
  · have hge := Nat.not_lt.mp hlt
    rw [List.getElem?_eq_none hge, List.getElem?_eq_none (by simpa [DriverRecord.values] using hge)]

/-- **Driver status samples are atomic snapshots**, whatever the other threads do.  Each row that
`driver_status_listen` logs, and each message it sends, is a sample of the lines as they are at that
moment; and the message is the row. -/
theorem driver_samples_are_snapshots (F : Type) [F64 F] (config : Configuration) (profile : Profile)
    (fromSlice : List UInt8 → Option Command) (threads : List Thread) (c : Controller)
    (t : List (Event Act.Ans)) (s : Sys Act Act.Ans Controller)
    (hrun : ControllerRun F config profile fromSlice (fun _ _ _ => True) threads c t s)
    (i turns : Nat) (hi : threads[i]? = some (.driverStatusListen turns))
    (t₁ : List (Event Act.Ans)) (e : Event Act.Ans) (t₂ : List (Event Act.Ans))
    (ht : t = t₁ ++ e :: t₂) (he : e.tid = i) :
    ∃ m m', Moment (controller config) (controllerOf F config profile fromSlice threads c) t s
        t₁ m e m' t₂ ∧
      (∀ readTime driverStates, e.call.op = .writeDriverLog readTime driverStates →
        IsSample (driverRecord (history i t₁)) m.shared.shared.driverLines.val driverStates) ∧
      ∀ message, e.call.op = .op (.send message) → ∃ driverStates,
        message = .driverValue driverStates ∧
        (driverRecord (history i t₁)).row = some driverStates ∧
        IsSample (driverRecord (history i t₁)) m.shared.shared.driverLines.val driverStates := by
  subst ht he
  obtain ⟨m, m', hm, -, hmoment⟩ := GuardedRun.moment hrun
  obtain ⟨k, hk, -⟩ := hmoment.step.self
  have hpermits := permits_of_status hm hi hk
  have hsample : ∀ driverStates,
      (driverRecord (history e.tid t₁)).Reports c.shared.driverLines.val.length driverStates →
      IsSample (driverRecord (history e.tid t₁)) m.shared.shared.driverLines.val driverStates := by
    intro driverStates h
    have hholds : Locks.Holds t₁ m e.tid .driverLines .exclusive :=
      ⟨_, hk, id, mem_held_of_guarded h.1⟩
    refine isSample_of_reports ?_ (seen_of_run hm hi hholds)
    rw [length_of_run hmoment.before]
    exact h
  refine ⟨m, m', hmoment, fun readTime driverStates hop => ?_, fun message hop => ?_⟩
  · rw [hop] at hpermits
    exact hsample driverStates hpermits
  · rw [hop] at hpermits
    obtain ⟨driverStates, rfl, hrow, h⟩ := hpermits
    exact ⟨driverStates, rfl, hrow, hsample driverStates h⟩

/-- A driver is opened after the thread has counted the lines and before it reads them: what it then
sends is what the driver's level is. -/
theorem opened_driver_sampled : ∃ t₁ e m m' s,
    Moment (controller (.oneDriver [] [])) (controllerOf ℚ (.oneDriver [] []) .release (fun _ => none)
      [.driverStatusListen 1, .handleCommand (.actuate 0 true)] (.new [false])) (t₁ ++ [e]) s
      t₁ m e m' [] ∧ e.tid = 0 ∧ e.call.op = .op (.send (.driverValue [true])) ∧
    (driverRecord (history 0 t₁)).reads = [(0, .ok true)] ∧ m.shared.shared.driverLines.val = [true] := by
  obtain ⟨t, s, hrun, hp⟩ := exists_guardedRun (M := controller (.oneDriver [] []))
    (G := fun t s e => Locks.Grants t s e ∧ True)
    (fun t s e h => ⟨Locking.grants_of_grants h, trivial⟩)
    (List.replicate 3 (0, World.fine) ++ List.replicate 14 (1, World.fine)
      ++ List.replicate 10 (0, World.fine))
    (s := controllerOf ℚ (.oneDriver [] []) .release (fun _ => none)
      [.driverStatusListen 1, .handleCommand (.actuate 0 true)] (.new [false]))
    (P := fun t _ => t.getLast?.any fun (e : Event Act.Ans) => e.tid == 0 &&
      decide (e.call.op = Act.op (.send (.driverValue [true]))) &&
      decide ((driverRecord (history 0 t.dropLast)).reads = [(0, .ok true)]))
    (by decide +kernel)
  obtain ⟨e, hlast, hp⟩ := (Option.any_eq_true _ _).mp hp
  simp only [Bool.and_eq_true, decide_eq_true_eq, beq_iff_eq] at hp
  obtain ⟨⟨htid, hop⟩, hreads⟩ := hp
  have ht : t = t.dropLast ++ [e] := (List.dropLast_append_getLast? e hlast).symm
  obtain ⟨m, m', hmoment, -, hsend⟩ := driver_samples_are_snapshots ℚ (.oneDriver [] []) .release
    (fun _ => none) [.driverStatusListen 1, .handleCommand (.actuate 0 true)] (.new [false]) t s hrun
    0 1 rfl t.dropLast e [] ht htid
  obtain ⟨driverStates, hmessage, -, hsample⟩ := hsend _ hop
  obtain rfl : [true] = driverStates := Message.driverValue.inj hmessage
  refine ⟨t.dropLast, e, m, m', s, ht ▸ hmoment, htid, hop, hreads, (hsample.snapshot ?_).symm⟩
  intro read hread
  rw [hreads, List.mem_singleton] at hread
  simp [hread]

end Slonk
