/-
# The heartbeat

"This will alternate the output value on `pin` for as long as the server is running": the thread of the
heartbeat looks at the state, and where it is not `Quit`, switches the line on and off twice, with a pause
after each time.  In the server this thread is one of many, and what it has to say is on one line.

* Only one thread writes the line, and the line has the level that was written last.
* What this thread writes, and the pauses it makes, are whole turns of the loop (`cycle`) and the
  beginning of one, as many as it has found the state other than `Quit`.
* Once it is over, and no write has failed it, they are whole turns, and the line is low.

The thread works off one turn after the other (`beats`), and does not begin a turn before it is through
with the last.
-/
import Slonk.Accountability
import Slonk.Concurrency.Worklist

namespace Slonk

open Concurrency

/-! ## 1. The loop -/

/-- What the thread does: a level on its line, or a pause. -/
inductive Beat where
  | level (value : Bool)
  | pause (duration : Duration)

/-- One turn of the loop. -/
def cycle : List Beat :=
  [.level true, .pause (.fromMillis 50), .level false, .pause (.fromMillis 50),
    .level true, .pause (.fromMillis 50), .level false, .pause (.fromMillis 850)]

/-- The state has been found to be another than `Quit`. -/
def carriesOn : Call Act.Ans → Bool
  | ⟨.status, some (.ok state)⟩ => state != .quit
  | _ => false

/-- A turn is worked off, level by level and pause by pause. -/
def beats : Worklist Act.Ans Beat where
  takes
    | ⟨.heartbeat value, some (.ok ())⟩ => some (.level value)
    | ⟨.op (.sleep duration), _⟩ => some (.pause duration)
    | _ => none
  fills c := if carriesOn c then some cycle else none

/-- A level could not be written. -/
def Act.misses : (a : Act) → a.Ans → Bool
  | .heartbeat _, .error _ => true
  | _, _ => false

section Programs

variable {steady : Prop} {γ : List Beat} {α : Type}

/-- It works off the turns, and comes to this.  Who is `steady` misses no level. -/
abbrev Beating (steady : Prop) (γ : List Beat) (p : Routine RunError α)
    (Q : Except RunError α → List Beat → Prop) : Prop :=
  p.run.Follows (beats.inOrder True) (fun a x => steady → a.misses x = false) γ Q

/-- A level and its pause. -/
theorem beat_beating (value : Bool) (millis : UInt32) :
    Beating steady (.level value :: .pause (.fromMillis millis) :: γ) (beat value millis)
      fun r γ' => (r = .ok () ∧ γ' = γ) ∨ ((∃ e, r = .error e) ∧ ¬ steady) := by
  refine ⟨⟨?_, fun _ _ _ h => by cases h⟩, ?_⟩
  · rintro (_ | _ | _) b hb
    · cases hb
    · cases hb
    · exact hb
  · rintro (e | u) hmisses
    · exact Or.inr ⟨⟨_, rfl⟩, fun hs => by cases hmisses hs⟩
    · exact ⟨⟨fun _ _ h => h, fun _ _ _ h => by cases h⟩, fun _ _ => Or.inl ⟨rfl, rfl⟩⟩

theorem beating_then {β : Type} {value : Bool} {millis : UInt32} {f : Unit → Routine RunError β}
    {Q : Except RunError β → List Beat → Prop} (hf : Beating steady γ (f ()) Q)
    (herr : ¬ steady → ∀ e γ', Q (.error e) γ') :
    Beating steady (.level value :: .pause (.fromMillis millis) :: γ) (beat value millis >>= f) Q := by
  refine Fallible.follows_bind (beat_beating value millis) ?_ ?_
  · rintro u γ' (⟨-, rfl⟩ | ⟨⟨e, ⟨⟩⟩, -⟩)
    exact hf
  · rintro e γ' (⟨⟨⟩, -⟩ | ⟨-, hsteady⟩)
    exact herr hsteady e γ'

/-- What the thread finds when it looks at the state, and what it has to do then. -/
def Found (r : Except RunError State) (γ : List Beat) : Prop :=
  (∃ state, r = .ok state ∧ γ = if state != .quit then cycle else []) ∨ ((∃ e, r = .error e) ∧ γ = [])

theorem status_beating : Beating steady [] Routine.status Found := by
  have hidle : ∀ {a : Act} {γ : List Beat}, (∀ x, beats.takes ⟨a, x⟩ = none) →
      (∀ x, beats.fills ⟨a, x⟩ = none) → (beats.inOrder True).permits γ a ∧
        ∀ x, (beats.inOrder True).next γ ⟨a, x⟩ = γ :=
    fun ht hf => ⟨Worklist.permits_idle ht hf, fun x => Worklist.next_idle (ht x) (hf x)⟩
  have hacquire := hidle (a := .acquire .state .shared) (γ := []) (fun _ => rfl) fun _ => rfl
  refine .guarded (P := Found) hacquire.1 (fun poisoned _ => ?_) fun r γ' h => ?_
  · rw [hacquire.2]
    refine ⟨⟨fun _ _ h => (by cases h), fun _ _ _ _ => rfl⟩, ?_⟩
    rintro (e | state) -
    · exact Or.inr ⟨⟨_, rfl⟩, rfl⟩
    · refine Or.inl ⟨state, rfl, ?_⟩
      cases state <;> rfl
  · have hrelease := hidle (a := .release .state) (γ := γ') (fun _ => rfl) fun _ => rfl
    refine ⟨hrelease.1, fun _ _ => ?_⟩
    rw [hrelease.2]
    exact h

/-- **One turn.** -/
theorem heartbeatTurn_beating : Beating steady [] (heartbeatTurn ())
    (Fallible.Turns (fun _ γ => γ = []) fun _ γ' => steady → γ' = []) := by
  have herr : ¬ steady → ∀ (e : RunError) (γ' : List Beat),
      Fallible.Turns (fun _ γ => γ = []) (fun _ γ' => steady → γ' = [])
        (.error e : Except RunError (Unit ⊕ Unit)) γ' := fun hn _ _ hs => absurd hs hn
  refine Fallible.follows_bind status_beating ?_ ?_
  · rintro state γ' (⟨_, ⟨⟩, rfl⟩ | ⟨⟨e, ⟨⟩⟩, -⟩)
    by_cases hquit : state = .quit
    · subst hquit
      exact fun _ => rfl
    · -- the whole turn is to be done, and is done in this order
      rw [if_neg hquit, if_pos (by simpa using hquit)]
      refine beating_then (beating_then (beating_then (beating_then ?_ herr) herr) herr) herr
      exact rfl
  · rintro e γ' (⟨state, ⟨⟩, -⟩ | ⟨-, rfl⟩)
    exact fun _ => rfl

/-- **The thread** is through with its turns in the end. -/
theorem heartbeat_beating (turns : Nat) :
    Beating steady [] (heartbeat turns) fun _ γ' => steady → γ' = [] := by
  refine Fallible.follows_bind (Fallible.follows_loop (I := fun _ γ => γ = [])
    (Q := fun _ γ' => steady → γ' = []) ?_ (fun _ _ h _ => h) turns rfl) (fun _ _ h => h) fun _ _ h => h
  rintro u _ rfl
  exact heartbeatTurn_beating

/-- The same in the server. -/
theorem heartbeat_follows (turns : Nat) : (ofActs (heartbeat turns).run.discard).Follows
    ((beats.through serverAct).inOrder True) (serverAnswers fun a x => steady → a.misses x = false) []
    fun _ γ' => steady → γ' = [] := by
  have hbeating : (heartbeat turns).run.discard.Follows (beats.inOrder True)
      (fun a x => steady → a.misses x = false) [] fun _ γ' => steady → γ' = [] :=
    .discard (heartbeat_beating turns)
  exact Worklist.follows_through (ofActs_follows hbeating)

end Programs

/-! ## 2. The line -/

/-- The level that a call has written to the line of the heartbeat. -/
def levelOf : Call ServerOp.Ans → Option Bool
  | ⟨.act (.heartbeat value), some (.ok ())⟩ => some value
  | _ => none

theorem levelOf_eq_some {c : Call ServerOp.Ans} {value : Bool} (h : levelOf c = some value) :
    c = ⟨.act (.heartbeat value), some (.ok ())⟩ := by
  unfold levelOf at h
  split at h
  · rw [Option.some.inj h]
  · cases h

/-- **The line has the level that is written.** -/
theorem heartbeatPin_exec (o : ServerOp) (w : ServerWorld) (c : Controller) :
    (o.exec w c).2.heartbeatPin = (levelOf ⟨o, (o.exec w c).1⟩).getD c.heartbeatPin := by
  cases o with
  | act a =>
    cases a with
    | heartbeat value =>
      simp only [ServerOp.exec, Act.exec]
      split <;> rfl
    | unwind guards =>
      refine Controller.foldl_poison (f := fun c => c.heartbeatPin) ?_ _ _
      intro c l
      cases l <;> rfl
    | readLine driverIdx =>
      simp only [ServerOp.exec, Act.exec]
      split <;> rfl
    | _ => rfl
  | _ => rfl

/-- The level among what the thread does. -/
def Beat.value : Beat → Option Bool
  | .level value => some value
  | .pause _ => none

theorem levelOf_eq (c : Call ServerOp.Ans) :
    levelOf c = ((serverAct c).bind beats.takes).bind Beat.value := by
  obtain ⟨o, x⟩ := c
  cases o with
  | act a =>
    cases a with
    | heartbeat value => obtain _ | (_ | _) := x <;> rfl
    | op o => cases o <;> rfl
    | _ => rfl
  | _ => rfl

/-- After whole turns the line is low. -/
theorem getLast_cycles (n : Nat) :
    (((List.replicate n cycle).flatten.filterMap Beat.value).getLast?).getD false = false := by
  cases n with
  | zero => rfl
  | succ n =>
    rw [List.replicate_succ', List.flatten_append, List.filterMap_append, List.getLast?_append]
    rfl

theorem fills_eq_cycles (h : List (Call Act.Ans)) :
    (h.filterMap beats.fills).flatten = (List.replicate (h.countP carriesOn) cycle).flatten := by
  induction h with
  | nil => rfl
  | cons c h ih =>
    cases hc : carriesOn c with
    | false => simpa [beats, hc] using ih
    | true => simpa [beats, hc, List.replicate_succ] using ih

/-! ## 3. Runs -/

/-- A call that does not come to its end, or does not write the level it should. -/
def missed : Call ServerOp.Ans → Bool
  | ⟨_, none⟩ => true
  | ⟨.act a, some x⟩ => a.misses x
  | _ => false

/-- Whole turns of the loop, as many as the thread has found the state other than `Quit`. -/
def cycles (i : Nat) (t : List (Event ServerOp.Ans)) : List Beat :=
  (List.replicate ((actsOf i t).countP carriesOn) cycle).flatten

/-- Thread `i` was started as the heartbeat. -/
def IsHeartbeat (F : Type) [F64 F] (config : Configuration) (profile : Profile)
    (fromSlice : List UInt8 → Option Command) (turns : Nat) (lines : List Bool)
    (t : List (Event ServerOp.Ans)) (i : Nat) : Prop :=
  ∃ t₁ e, StartedBy (server F config profile fromSlice)
    (serverOf config profile fromSlice turns lines) t i t₁ e ∧
    e.call.op = .spawnListener (.heartbeat turns)

section Runs

variable {F : Type} [F64 F] {config : Configuration} {profile : Profile}
  {fromSlice : List UInt8 → Option Command} {turns : Nat} {lines : List Bool}
  {t : List (Event ServerOp.Ans)} {s : Sys ServerOp ServerOp.Ans Controller}
  (hrun : Run (server F config profile fromSlice) (serverOf config profile fromSlice turns lines) t s)

/-- Only such operations, whatever has been done. -/
def only (P : Act → Prop) : Protocol Act Act.Ans Unit where
  permits _ a := P a
  aborts _ := True
  next γ _ := γ

/-- What the closure performs on the controller. -/
theorem scopeClosure_all {P : Act → Prop} (hcommon : ∀ a, a.Common → P a)
    (haccepts : ∀ a, a.Accepts config → P a) :
    (scopeClosure config profile fromSlice turns).run.All fun o => ∀ a, o = .act a → P a := by
  have hfollows : ∀ {α : Type} {p : Prog Act Act.Ans α}, p.All P →
      p.Follows (only P) (fun _ _ => True) () fun _ _ => True :=
    fun hp => (hp.follows (fun _ h => h) (fun _ _ _ => rfl) trivial).mono fun _ _ _ => trivial
  have hlog : ∀ level message, (Routine.log [] level message).run.All P := fun level message =>
    (keeps_log (R := fun _ _ => True) (A := fun _ _ => True) hcommon [] level message none_held).all
  have haccepting : (accepting config profile fromSlice turns).run.All P :=
    (keeps_accepting (R := fun _ _ => True) (A := fun _ _ => True) hcommon (fun _ _ _ => trivial)
      config profile fromSlice haccepts turns).all
  have hclosure := scopeClosure_follows (T := only P) (A := fun _ _ => True) (I := fun _ => True)
    (Q := fun _ _ => True) (fun level message _ _ => hfollows (hlog level message))
    (fun _ _ => hfollows haccepting) (fun _ _ _ => trivial) (γ := ()) trivial
  rw [serverAnswers_true] at hclosure
  refine hclosure.all ?_
  rintro _ o ho a rfl
  exact ho none _ rfl

/-- Only the thread of the heartbeat writes the line. -/
theorem Thread.Performs.heartbeat {thread : Thread} {value : Bool}
    (h : thread.Performs config (.heartbeat value)) : ∃ turns, thread = .heartbeat turns := by
  cases thread with
  | heartbeat turns => exact ⟨turns, rfl⟩
  | accepting turns => exact (h.elim id id).elim
  | sensorListen groupId logFiles turns => exact (h.elim id id).elim
  | driverStatusListen turns => exact (h.elim id id).elim
  | handleCommand cmd =>
    rcases h with h | ⟨_, ⟨⟩⟩ | ⟨_, _, ⟨⟩⟩ | ⟨_, _, ⟨⟩⟩
    exact h.elim
  | emergencyStop =>
    rcases h with h | ⟨_, ⟨⟩⟩ | ⟨_, _, ⟨⟩⟩
    exact h.elim

include hrun

/-- A thread that does what only listeners do was started as one that does it. -/
theorem listener_of_act {a : Act} (hcommon : ¬ a.Common) (haccepts : ¬ a.Accepts config)
    (hfork : ∀ thread : Thread, thread.Performs config a →
      (∀ cmd, thread ≠ .handleCommand cmd) ∧ thread ≠ .emergencyStop)
    {e : Event ServerOp.Ans} (he : e ∈ t) (hop : e.call.op = .act a) :
    ∃ thread ∈ listeners config turns, thread.Performs config a ∧
      ∃ t₁ e', StartedBy (server F config profile fromSlice)
        (serverOf config profile fromSlice turns lines) t e.tid t₁ e' ∧
        e'.call.op = .spawnListener thread := by
  obtain ⟨t₁, t₂, rfl⟩ := List.append_of_mem he
  obtain ⟨m, m', hmoment⟩ := hrun.moment
  obtain ⟨k, hk, -⟩ := hmoment.step.self
  obtain ⟨tid, ⟨o, x⟩⟩ := e
  subst hop
  obtain ⟨p, horigin, hsteps⟩ := origin_of_run hmoment.before hk
  -- what is started by an operation of the controller is a command or a stop
  have hforked : ∀ {b : Act} {q : Prog Act Act.Ans Unit}, (controller config).fork b = some q →
      ¬ Prog.Steps (ofActs q) (history tid t₁) (.op (.act a) k) := by
    intro b q hq hsteps
    obtain ⟨thread, hthread, hall⟩ := fork_all config hq
    obtain ⟨hcommand, hstop⟩ := hfork thread (next_of_all hall hsteps)
    rcases hthread with ⟨cmd, rfl⟩ | rfl
    · exact hcommand cmd rfl
    · exact hstop rfl
  cases horigin with
  | closure first =>
    have hall : (scopeClosure config profile fromSlice turns).run.discard.All
        fun o => ∀ b, o = .act b → b ≠ a :=
      (scopeClosure_all (by rintro _ ha rfl; exact hcommon ha)
        (by rintro _ ha rfl; exact haccepts ha)).discard
    exact absurd rfl ((hsteps.all hall).2.1 a rfl)
  | command cmd t₀ e' started op => exact absurd hsteps (hforked (b := .op (.spawn cmd)) rfl)
  | stop t₀ e' started op => exact absurd hsteps (hforked (b := .spawnStop) rfl)
  | listener thread t₀ e' started op mem =>
    exact ⟨thread, mem, next_of_all (thread.program_all F config profile fromSlice) hsteps,
      t₀, e', started.append _, op⟩

/-- A listener that is on the list once is started once. -/
theorem started_once {thread : Thread} (hthread : (listeners config turns).count thread ≤ 1) {i j : Nat}
    {t₁ t₁' : List (Event ServerOp.Ans)} {e e' : Event ServerOp.Ans}
    (h : StartedBy (server F config profile fromSlice)
      (serverOf config profile fromSlice turns lines) t i t₁ e)
    (h' : StartedBy (server F config profile fromSlice)
      (serverOf config profile fromSlice turns lines) t j t₁' e')
    (hop : e.call.op = .spawnListener thread) (hop' : e'.call.op = .spawnListener thread) : i = j := by
  have hcount := ((listeners_of_run hrun).sublist.count_le thread).trans hthread
  have hstarts : ∀ {e : Event ServerOp.Ans}, e.call.op = .spawnListener thread →
      ((spawnedBy e.call).map (· == thread)).getD false = true := by
    rintro ⟨tid, ⟨o, x⟩⟩ hop
    subst hop
    exact decide_eq_true rfl
  rw [List.count, List.countP_filterMap] at hcount
  exact h.unique h' (hstarts hop) (hstarts hop') hcount

/-- The thread that writes the line was started as the heartbeat. -/
theorem heartbeat_started {e : Event ServerOp.Ans} (he : e ∈ t) {value : Bool}
    (hop : e.call.op = .act (.heartbeat value)) :
    IsHeartbeat F config profile fromSlice turns lines t e.tid := by
  obtain ⟨thread, hmem, hperforms, t₁, e', hstarted, hop'⟩ := listener_of_act hrun id id
    (fun thread h => by obtain ⟨n, rfl⟩ := h.heartbeat; simp) he hop
  obtain ⟨n, rfl⟩ := hperforms.heartbeat
  obtain rfl : n = turns := by simpa [listeners] using hmem
  exact ⟨t₁, e', hstarted, hop'⟩

/-- It is started once. -/
theorem heartbeat_once {i j : Nat} (hi : IsHeartbeat F config profile fromSlice turns lines t i)
    (hj : IsHeartbeat F config profile fromSlice turns lines t j) : j = i := by
  have hcount : (listeners config turns).count (.heartbeat turns) ≤ 1 := by
    simp [listeners, List.count_append, List.count_eq_zero]
  obtain ⟨t₁, e, h, hop⟩ := hi
  obtain ⟨t₁', e', h', hop'⟩ := hj
  exact started_once hrun hcount h' h hop' hop

/-- The line has the level that was written last. -/
theorem heartbeatPin_of_run : s.shared.heartbeatPin
    = ((t.filterMap fun e => levelOf e.call).getLast?).getD false := by
  induction hrun with
  | refl => rfl
  | @tail m m' t e _ hs ih =>
    obtain ⟨tid, ⟨o, x⟩⟩ := e
    obtain ⟨w, hans, hshared⟩ := hs.exec
    obtain rfl : x = (o.exec w m.shared).1 := hans
    rw [hshared, List.filterMap_append]
    refine (heartbeatPin_exec o w m.shared).trans ?_
    cases h : levelOf ⟨o, (o.exec w m.shared).1⟩ with
    | none => simpa [h] using ih
    | some value => simp [h]

omit hrun in
/-- What the thread of the heartbeat has done. -/
theorem heartbeat_turns {i : Nat} {q : Prog ServerOp ServerOp.Ans Unit}
    (hsteps : Prog.Steps (ofActs (heartbeat turns).run.discard) (history i t) q) :
    (actsOf i t).filterMap beats.takes <+: cycles i t := by
  have hanswers : ∀ (o : ServerOp) (x : o.Ans),
      serverAnswers (fun a x => False → a.misses x = false) o x := by
    intro o x
    cases o with
    | act a => exact False.elim
    | _ => trivial
  have hprefix := Worklist.takes_isPrefix trivial (heartbeat_follows turns) hsteps
    fun c _ x _ => hanswers c.op x
  rwa [Worklist.filterMap_takes, Worklist.filterMap_fills, List.nil_append, fills_eq_cycles] at hprefix

omit hrun in
theorem heartbeat_all {i : Nat} {q : Prog ServerOp ServerOp.Ans Unit}
    (hsteps : Prog.Steps (ofActs (heartbeat turns).run.discard) (history i t) q) (hq : q.Finished)
    (hmissed : ∀ e ∈ t, e.tid = i → missed e.call = false) :
    (actsOf i t).filterMap beats.takes = cycles i t := by
  have hanswered : ∀ e ∈ t, e.tid = i → e.call.ans ≠ none := by
    rintro ⟨tid, ⟨o, _ | x⟩⟩ he hi hnone
    · cases hmissed _ he hi
    · cases hnone
  have hanswers : ∀ e ∈ t, e.tid = i → ∀ x, e.call.ans = some x →
      serverAnswers (fun a x => True → a.misses x = false) e.call.op x := by
    intro e he hi
    have hhit := hmissed e he hi
    refine serverAnswers_of_acts fun a x hcall _ => ?_
    rw [hcall] at hhit
    exact hhit
  have hall := Worklist.takes_all trivial ((heartbeat_follows turns).mono fun _ _ h => h trivial) hsteps
    hq (forall_mem_history hanswers) (forall_mem_history hanswered)
  rwa [Worklist.filterMap_takes, Worklist.filterMap_fills, List.nil_append, fills_eq_cycles] at hall

/-- The levels of the line are those of the heartbeat. -/
theorem levels_eq {i : Nat} (hi : IsHeartbeat F config profile fromSlice turns lines t i) :
    (t.filterMap fun e => levelOf e.call)
      = ((actsOf i t).filterMap beats.takes).filterMap Beat.value := by
  have hother : ∀ e ∈ t, e.tid ≠ i → levelOf e.call = none := by
    intro e he htid
    by_contra hlevel
    obtain ⟨value, hvalue⟩ := Option.ne_none_iff_exists'.mp hlevel
    have hstarted := heartbeat_started hrun he (congrArg Call.op (levelOf_eq_some hvalue))
    exact htid (heartbeat_once hrun hi hstarted)
  rw [filterMap_history (f := levelOf) hother, actsOf, List.filterMap_filterMap,
    List.filterMap_filterMap]
  exact List.filterMap_congr fun c _ => (levelOf_eq c).trans (Option.bind_assoc ..)

end Runs

/-- **The heartbeat.**  In every run of the server the line has the level that was written last, and no
other thread writes it than the one that was started as the heartbeat, of which there is one; what this
thread has written, and the pauses it has made, are turns of the loop, the last of them as far as it has
come; and if it has come to its end and no write has failed it, they are whole turns, and the line is
low. -/
theorem heartbeat_alternates (F : Type) [F64 F] (config : Configuration) (profile : Profile)
    (fromSlice : List UInt8 → Option Command) (turns : Nat) (lines : List Bool)
    (t : List (Event ServerOp.Ans)) (s : Sys ServerOp ServerOp.Ans Controller)
    (hrun : Run (server F config profile fromSlice) (serverOf config profile fromSlice turns lines)
      t s) :
    s.shared.heartbeatPin = ((t.filterMap fun e => levelOf e.call).getLast?).getD false ∧
    (∀ e ∈ t, ∀ value, e.call.op = .act (.heartbeat value) →
      IsHeartbeat F config profile fromSlice turns lines t e.tid) ∧
    ∀ i, IsHeartbeat F config profile fromSlice turns lines t i →
      (∀ j, IsHeartbeat F config profile fromSlice turns lines t j → j = i) ∧
      (actsOf i t).filterMap beats.takes <+: cycles i t ∧
      ∀ q, s.threads[i]? = some q → q.Finished → (∀ e ∈ t, e.tid = i → missed e.call = false) →
        (actsOf i t).filterMap beats.takes = cycles i t ∧ s.shared.heartbeatPin = false := by
  refine ⟨heartbeatPin_of_run hrun, fun e he value => heartbeat_started hrun he, fun i hi => ?_⟩
  have ⟨t₁, e, hstarted, hop⟩ := hi
  obtain ⟨q, hq, hsteps⟩ := hstarted.steps hrun (by rw [hop]; rfl)
  refine ⟨fun j => heartbeat_once hrun hi, heartbeat_turns hsteps, fun q' hq' hfinished hmissed => ?_⟩
  obtain rfl : q = q' := Option.some.inj (hq.symm.trans hq')
  have hall := heartbeat_all hsteps hfinished hmissed
  refine ⟨hall, ?_⟩
  rw [heartbeatPin_of_run hrun, levels_eq hrun hi, hall]
  exact getLast_cycles _

/-- One turn, and the line is low again. -/
theorem heartbeat_has_beaten : ∃ t s,
    Run (server ℚ (.oneDriver [] []) .release fun _ => none)
      (serverOf (.oneDriver [] []) .release (fun _ => none) 1 [false]) t s ∧
    (actsOf 2 t).filterMap beats.takes = cycle ∧ s.shared.heartbeatPin = false := by
  obtain ⟨t, s, hrun, hp⟩ := exists_guardedRun
    (M := server ℚ (.oneDriver [] []) .release fun _ => none)
    (C := fun _ _ e => !missed e.call) (G := fun _ _ e => missed e.call = false)
    (fun _ _ e h => by simpa using h)
    (List.replicate 2 (0, ServerWorld.fine) ++ List.replicate 11 (2, ServerWorld.fine))
    (s := serverOf (.oneDriver [] []) .release (fun _ => none) 1 [false])
    (P := fun t s => decide ((actsOf 2 t).countP carriesOn = 1) &&
      (t.any fun e => decide (e.tid = 2) && decide (e.call.op = .act (.heartbeat true))) &&
      s.threads[2]?.any fun q => q.pending.isNone) (by decide +kernel)
  simp only [Bool.and_eq_true, decide_eq_true_eq, List.any_eq_true, Option.any_eq_true,
    Option.isNone_iff_eq_none, Prog.pending_eq_none] at hp
  obtain ⟨⟨hcount, e, he, htid, hop⟩, q, hq, hfinished⟩ := hp
  obtain ⟨-, hbeats, hheartbeat⟩ := heartbeat_alternates ℚ (.oneDriver [] []) .release (fun _ => none) 1
    [false] t s hrun.run
  obtain ⟨-, -, hover⟩ := hheartbeat 2 (htid ▸ hbeats e he true hop)
  have hmissed := hrun.forall_mem fun _ _ _ _ h _ => h
  obtain ⟨hall, hlow⟩ := hover q hq hfinished fun e he _ => hmissed e he
  refine ⟨t, s, hrun.run, hall.trans ?_, hlow⟩
  rw [cycles, hcount]
  rfl

end Slonk
