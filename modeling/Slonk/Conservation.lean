/-
# Commands are neither lost nor duplicated

Any number of clients send commands, one connection after the other.  The thread that serves them takes
a command up by starting a thread for it, or, if it is an `Actuate`, by executing it itself; and whoever
executes a command first asks for it to be logged.  What is requested, then, of what the clients have
sent?

* No more: the requests of all threads together are, up to their order, a part of what the accepted
  clients have sent.  No command is made up, and none is executed twice.
* No less: once all threads have come to their ends, they are all of it, if the thread of the clients was
  denied nothing that it cannot do without (`denied`) and nothing has panicked.

The thread of the clients works off a list (`orders`), that of a client it has accepted; the thread of a
command works off one with this command alone.  So the one takes up a sublist of what the clients have
sent, in their order, and each of the others requests the command it was started for, once
(`Worker`).  What is left is counting: the requests of a run are those of its threads, and a command for
which a thread was started is taken up by the one and requested by the other.
-/
import Slonk.Unfailing
import Slonk.Concurrency.Worklist

namespace Slonk

open Concurrency
open scoped List

/-! ## 1. Taking up a command -/

/-- A command is taken up. -/
def orders : Worklist Op.Ans Command where
  takes
    | ⟨.spawn cmd, _⟩ => some cmd
    | ⟨.logCommand _ .request cmd, _⟩ => some cmd
    | _ => none
  fills _ := none

/-- The operation is denied what the thread of the clients cannot do without. -/
def Op.denied : (o : Op) → o.Ans → Bool
  | .userLog _ _, .error _ => true
  | .send _, .error _ => true
  | _, _ => false

/-- Operations that take nothing up. -/
def Op.Idle (o : Op) : Prop := ∀ x, orders.takes ⟨o, x⟩ = none

section Programs

variable {config : Configuration} {profile : Profile} {fromSlice : List UInt8 → Option Command}
  {strict : Prop} {ε α : Type} {γ : List Command} {cmd : Command}

/-- It works off the commands, and comes to this. -/
abbrev WorksOff (strict : Prop) (γ : List Command) (p : Proc ε α)
    (Q : Except ε α → List Command → Prop) : Prop :=
  p.run.Follows (orders.inOrder True) (fun o a => strict → o.denied a = false) γ Q

theorem permits_of_idle {o : Op} (h : o.Idle) : (orders.inOrder True).permits γ o :=
  Worklist.permits_idle h fun _ => rfl

theorem permits_request (time : Nat) :
    (orders.inOrder True).permits (cmd :: γ) (.logCommand time .request cmd) :=
  ⟨fun _ _ h => h, by rintro - _ _ ⟨⟩⟩

theorem permits_spawn : (orders.inOrder True).permits (cmd :: γ) (.spawn cmd) :=
  ⟨fun _ _ h => h, by rintro - _ _ ⟨⟩⟩

/-- A program that takes nothing up. -/
theorem worksOff_of_idle {p : Proc ε α} (hp : p.run.All Op.Idle) (hn : p.run.NoPanic) :
    WorksOff strict γ p fun _ γ' => γ' = γ := by
  refine hp.follows_invariant (I := (· = γ)) (fun _ o ho _ => permits_of_idle ho) ?_
    (fun _ _ h => absurd hn h) rfl
  rintro _ o a ho rfl
  exact Worklist.next_idle (ho _) rfl

theorem logUser_worksOff (level : LogLevel) (message : UserMessage) :
    WorksOff strict γ (logUser level message) fun r γ' => γ' = γ ∧ (strict → r = .ok ()) := by
  refine ⟨permits_of_idle fun _ => rfl, ?_⟩
  rintro (e | u) hgranted
  · exact ⟨rfl, fun hs => by cases hgranted hs⟩
  · exact ⟨rfl, fun _ => rfl⟩

theorem send_worksOff (message : Message) :
    WorksOff strict γ (send message) fun r γ' => γ' = γ ∧ (strict → r = .ok ()) := by
  refine ⟨permits_of_idle fun _ => rfl, ?_⟩
  rintro (e | u) hgranted
  · exact ⟨rfl, fun hs => by cases hgranted hs⟩
  · exact ⟨rfl, fun _ => rfl⟩

theorem prologue_worksOff (cmd : Command) :
    WorksOff strict (cmd :: γ) (prologue cmd) fun _ γ' => γ' = γ := by
  refine ⟨permits_of_idle fun _ => rfl, fun time _ => ⟨permits_of_idle fun _ => rfl, fun _ _ => ?_⟩⟩
  refine ⟨permits_request time, ?_⟩
  rintro (e | u) -
  · cases e with
    | poisoned => exact rfl
    | io => exact ⟨permits_of_idle fun _ => rfl, fun _ _ => rfl⟩
  · exact rfl

theorem execute_idle (cmd : Command) : (execute config cmd).run.All Op.Idle := by
  cases cmd with
  | actuate driverId value => exact execute_actuate_all fun _ => rfl
  | ignition =>
    exact Procedure.code_all (fun _ _ => rfl) .ignition (fun _ _ _ => rfl) fun _ _ _ _ => rfl
  | emergencyStop =>
    exact Procedure.code_all (fun _ _ => rfl) .emergencyStop (fun _ _ _ => rfl) fun _ _ _ _ => rfl

theorem epilogue_idle (cmd : Command) : (epilogue cmd).run.All Op.Idle := by
  refine ⟨fun _ => rfl, fun time => ⟨fun _ => rfl, ?_⟩⟩
  rintro (e | u)
  · cases e with
    | poisoned => trivial
    | io => exact ⟨fun _ => rfl, fun _ => trivial⟩
  · trivial

/-- **Who executes a command requests it**, once. -/
theorem handleCommand_worksOff (cmd : Command) :
    WorksOff strict (cmd :: γ) (handleCommand config cmd) fun _ γ' => γ' = γ := by
  rw [handleCommand_eq]
  refine Fallible.follows_bind (prologue_worksOff cmd) ?_ fun _ _ h => h
  rintro u _ rfl
  refine Fallible.follows_bind (worksOff_of_idle (execute_idle cmd) (execute_noPanic config cmd)) ?_
    fun _ _ h => h
  rintro u _ rfl
  exact worksOff_of_idle (epilogue_idle cmd) fun time => logCommand_noPanic time .finish cmd

theorem commandThread_worksOff (cmd : Command) : (commandThread config cmd).Follows
    (orders.inOrder True) (fun o a => strict → o.denied a = false) [cmd] fun _ γ' => γ' = [] := by
  refine Prog.Follows.bind ((handleCommand_worksOff cmd).mono ?_)
  rintro r _ rfl
  exact ⟨permits_of_idle fun _ => rfl, fun _ _ => rfl⟩

/-! ## 2. A client -/

/-- The end of a turn after which the loop goes on. -/
theorem goesOn_worksOff (level : LogLevel) (message : UserMessage) :
    WorksOff strict γ (logUser level message >>= fun _ => pure true : Proc ControllerError Bool)
      fun r γ' => γ' = γ ∧ (strict → r = .ok true) := by
  refine Fallible.follows_bind (logUser_worksOff level message) ?_ ?_
  · exact fun u γ' h => ⟨h.1, fun _ => rfl⟩
  · exact fun e γ' h => ⟨h.1, fun hs => by cases h.2 hs⟩

/-- A message that is no command. -/
theorem handleMessage_skipped {e : IncomingError} (heof : e ≠ .io .unexpectedEof)
    (hreset : e ≠ .io .connectionReset) : WorksOff strict γ (handleMessage config (.error e))
      fun r γ' => γ' = γ ∧ (strict → r = .ok true) :=
  match e with
  | .malformed _ => goesOn_worksOff _ _
  | .io .unexpectedEof => absurd rfl heof
  | .io .connectionReset => absurd rfl hreset
  | .io .interrupted => goesOn_worksOff _ _
  | .io (.other _) => goesOn_worksOff _ _

theorem actuateInline_worksOff (driverId : UInt8) (value : Bool) :
    WorksOff strict (.actuate driverId value :: γ) (actuateInline config driverId value)
      fun r γ' => γ' = γ ∧ (strict → r = .ok ()) := by
  -- its error is a result here
  have hlift : WorksOff strict (.actuate driverId value :: γ)
      (ExceptT.lift (handleCommand config (.actuate driverId value)).run :
        Proc ControllerError (Except ExecutionError Unit)) fun r γ' => γ' = γ ∧ ∃ a, r = .ok a :=
    Prog.Follows.bind ((handleCommand_worksOff _).mono fun r _ h => ⟨h, r, rfl⟩)
  refine Fallible.follows_bind hlift ?_ ?_
  · rintro (e | u) _ ⟨rfl, -⟩
    · exact logUser_worksOff _ _
    · exact logUser_worksOff _ _
  · rintro e _ ⟨-, _, ⟨⟩⟩

/-- A command. -/
theorem handleMessage_command (cmd : Command) : WorksOff strict (cmd :: γ)
    (handleMessage config (.ok cmd)) fun r γ' => γ' = γ ∧ (strict → r = .ok true) := by
  have hspawn : ∀ cmd : Command, WorksOff strict (cmd :: γ) (spawn cmd >>= fun _ =>
      logUser .debug (.text "Finished executing command.") >>= fun _ => pure true :
      Proc ControllerError Bool) fun r γ' => γ' = γ ∧ (strict → r = .ok true) :=
    fun cmd => ⟨permits_spawn, fun _ _ => goesOn_worksOff _ _⟩
  cases cmd with
  | actuate driverId value =>
    refine Fallible.follows_bind (actuateInline_worksOff driverId value) ?_ ?_
    · exact fun u γ' h => ⟨h.1, fun _ => rfl⟩
    · exact fun e γ' h => ⟨h.1, fun hs => by cases h.2 hs⟩
  | ignition => exact hspawn .ignition
  | emergencyStop => exact hspawn .emergencyStop

/-- The loop goes on after a message. -/
theorem worksOff_turn {p : Proc ControllerError Unit} {m : Proc ControllerError Bool}
    {cmds cmds' : List Command}
    (hm : WorksOff strict cmds m fun r γ' => γ' = cmds' ∧ (strict → r = .ok true))
    (hp : WorksOff strict cmds' p fun _ γ' => strict → γ' = []) :
    WorksOff strict cmds (m >>= fun b => if b then p else pure ()) fun _ γ' => strict → γ' = [] := by
  refine Fallible.follows_bind hm ?_ fun e γ' h hs => by cases h.2 hs
  rintro (_ | _) _ ⟨rfl, htrue⟩
  · exact fun hs => by cases htrue hs
  · exact hp

/-- **A client's commands are taken up in order**, and all of them by who is strict. -/
theorem handleClient_worksOff (src : Source) : WorksOff strict (decode profile fromSlice src)
    (handleClient config profile fromSlice src) fun _ γ' => strict → γ' = [] := by
  have hloop : ∀ fuel src, WorksOff strict (decodeWith profile fromSlice fuel src)
      (handleClientLoop config profile fromSlice fuel src) fun _ γ' => strict → γ' = [] := by
    refine handleClientLoop_induct (motive := fun p cmds =>
      WorksOff strict cmds p fun _ γ' => strict → γ' = []) ?_ ?_ ?_ ?_
    · exact rfl
    · refine Fallible.follows_bind (logUser_worksOff _ _) ?_ ?_
      · exact fun u γ' h _ => h.1
      · exact fun e γ' h _ => h.1
    · exact fun e p cmds heof hreset ih => worksOff_turn (handleMessage_skipped heof hreset) ih
    · exact fun cmd p cmds ih => worksOff_turn (handleMessage_command cmd) ih
  refine Fallible.follows_bind (send_worksOff _) ?_ fun e γ' h hs => by cases h.2 hs
  rintro u _ ⟨rfl, -⟩
  refine Fallible.follows_bind (logUser_worksOff _ _) ?_ fun e γ' h hs => by cases h.2 hs
  rintro u _ ⟨rfl, -⟩
  exact hloop _ src

end Programs

/-! ## 3. The thread of the clients -/

/-- The same, of the operations of the controller. -/
def Act.denied : (a : Act) → a.Ans → Bool
  | .op o, r => o.denied r
  | .peerAddr, .error _ => true
  | .tryClone, .error _ => true
  | .setChannel, .error _ => true
  | _, _ => false

/-- The command that an operation asks to be logged as requested. -/
def ServerOp.requested : ServerOp → Option Command
  | .act (.op (.logCommand _ .request cmd)) => some cmd
  | _ => none

/-- The command that an operation starts a thread for. -/
def ServerOp.spawned : ServerOp → Option Command
  | .act (.op (.spawn cmd)) => some cmd
  | _ => none

/-- A list that is worked off by operations under their locks: the locks have nothing to do with it. -/
theorem lifts_of_takes {β : Type} {K : Worklist Op.Ans β} {K' : Worklist Act.Ans β} {strict : Prop}
    {A : (o : Op) → o.Ans → Prop} {A' : (a : Act) → a.Ans → Prop}
    (htakes : ∀ c, K'.takes c = (effect c).bind K.takes) (hfills : ∀ c, K.fills c = none)
    (hops : ∀ o x, K'.fills ⟨.op o, x⟩ = none)
    (hlocks : ∀ a : Act, a.Locks → ∀ x, K'.fills ⟨a, x⟩ = none)
    (hanswers : ∀ o a, A' (.op o) a → A o a)
    (hpoisoned : A' (.acquire .dashChannel .exclusive) true → ∀ γ message,
      A (.send message) (.error .poison) ∧
        (K.inOrder True).next γ ⟨.send message, some (.error .poison)⟩ = γ) :
    Lifts (K.inOrder True) A (K'.inOrder strict) A' where
  permits := by
    intro γ o h
    constructor
    · intro x b hb
      rw [htakes] at hb
      exact h.1 x b hb
    · intro _ x l hl
      rw [hops] at hl
      cases hl
  next := by
    intro γ o x
    simp only [Worklist.inOrder, Worklist.next, htakes, hops, hfills]
    rfl
  silent := by
    intro γ a ha
    have hnone : ∀ x, K'.takes ⟨a, x⟩ = none := by
      intro x
      rw [htakes]
      cases a with
      | op o => exact ha.elim
      | _ => rfl
    exact ⟨Worklist.permits_idle hnone (hlocks a ha),
      fun x => Worklist.next_idle (hnone x) (hlocks a ha x)⟩
  aborts _ h := h
  answers := hanswers
  poisoned := hpoisoned

/-- Commands are taken up, and each client that is accepted has sent some. -/
def docket (profile : Profile) (fromSlice : List UInt8 → Option Command) :
    Worklist Act.Ans Command where
  takes c := (effect c).bind orders.takes
  fills c := (clientOf c).map (decode profile fromSlice)

/-- What is answered where nothing is denied to who is strict. -/
def Act.Obliges (strict : Prop) (a : Act) (x : a.Ans) : Prop :=
  strict → a.denied x = false ∧ Orderly a (some x)

section Closure

variable {config : Configuration} {profile : Profile} {fromSlice : List UInt8 → Option Command}
  {turns : Nat} {strict : Prop} {γ : List Command}

theorem docket_lifts {strict' : Prop} : Lifts (orders.inOrder True)
    (fun o a => strict → o.denied a = false) ((docket profile fromSlice).inOrder strict')
    (Act.Obliges strict) := by
  refine lifts_of_takes (fun _ => rfl) (fun _ => rfl) (fun _ _ => rfl) ?_ (fun _ _ h hs => (h hs).1) ?_
  · intro a ha x
    cases a with
    | accept => exact ha.elim
    | _ => rfl
  · -- a channel is never poisoned, as the answers are orderly
    exact fun h _ _ => ⟨fun hs => (by cases (h hs).2), rfl⟩

/-- Nothing is left, for who is strict. -/
abbrev Done (strict : Prop) (γ : List Command) : Prop := strict → γ = []

theorem serve_worksOff (src : Source) : (serve config profile fromSlice src).run.Follows
    ((docket profile fromSlice).inOrder strict) (Act.Obliges strict) (decode profile fromSlice src)
    fun _ γ' => Done strict γ' :=
  Prog.Follows.bind ((docket_lifts.expand (handleClient_worksOff src)).mono fun _ _ h => h)

/-- A part of the accept loop that keeps what there is to do. -/
abbrev Waits {α : Type} (profile : Profile) (fromSlice : List UInt8 → Option Command) (strict : Prop)
    (γ : List Command) (p : Routine RunError α) : Prop :=
  p.run.Follows ((docket profile fromSlice).inOrder strict) (Act.Obliges strict) γ
    fun r γ' => γ' = γ ∧ (strict → ∃ a, r = .ok a)

theorem waits_log (level : LogLevel) (message : UserMessage) :
    Waits profile fromSlice strict γ (Routine.log [] level message) := by
  have hpermits : (orders.inOrder True).permits γ (.userLog level message) :=
    permits_of_idle fun _ => rfl
  refine Prog.Follows.bind ((docket_lifts.writeLog hpermits).mono ?_)
  rintro (e | u) _ ⟨hgranted, rfl⟩
  · exact ⟨rfl, fun hs => by cases hgranted hs⟩
  · exact ⟨rfl, fun _ => ⟨(), rfl⟩⟩

theorem waits_attempt {α : Type} {a : Act} {f : a.Ans → Except RunError α}
    (ht : ∀ x, (docket profile fromSlice).takes ⟨a, x⟩ = none)
    (hf : ∀ x, (docket profile fromSlice).fills ⟨a, x⟩ = none)
    (hgranted : ∀ x, a.denied x = false → ∃ b, f x = .ok b) :
    Waits profile fromSlice strict γ (.attempt a f) :=
  ⟨Worklist.permits_idle ht hf, fun x hx =>
    ⟨Worklist.next_idle (ht _) (hf _), fun hs => hgranted x (hx hs).1⟩⟩

theorem waits_peerAddr : Waits profile fromSlice strict γ
    (.attempt .peerAddr fun r => r.mapError fun _ => .console) := by
  refine waits_attempt (fun _ => rfl) (fun _ => rfl) ?_
  rintro (e | address) hgranted
  · cases hgranted
  · exact ⟨address, rfl⟩

theorem waits_tryClone : Waits profile fromSlice strict γ
    (.attempt .tryClone fun r => r.mapError fun _ => .console) := by
  refine waits_attempt (fun _ => rfl) (fun _ => rfl) ?_
  rintro (e | u) hgranted
  · cases hgranted
  · exact ⟨(), rfl⟩

theorem waits_setChannel : Waits profile fromSlice strict γ Routine.setChannel := by
  refine docket_lifts.guarded fun poisoned _ => waits_attempt (fun _ => rfl) (fun _ => rfl) ?_
  rintro (e | u) hgranted
  · cases hgranted
  · exact ⟨(), rfl⟩

/-- One part after the other. -/
theorem waits_then {α β : Type} {p : Routine RunError α} {f : α → Routine RunError β}
    {Q : Except RunError β → List Command → Prop} (hp : Waits profile fromSlice strict γ p)
    (hf : ∀ a, (f a).run.Follows ((docket profile fromSlice).inOrder strict) (Act.Obliges strict)
      γ Q)
    (herr : ¬ strict → ∀ e, Q (.error e) γ) :
    (p >>= f).run.Follows ((docket profile fromSlice).inOrder strict) (Act.Obliges strict) γ Q := by
  refine Fallible.follows_bind hp ?_ ?_
  · rintro a _ ⟨rfl, -⟩
    exact hf a
  · rintro e _ ⟨rfl, hok⟩
    refine herr (fun hs => ?_) e
    obtain ⟨a, ha⟩ := hok hs
    cases ha

/-- **The accept loop** takes up what its clients have sent. -/
theorem accepting_worksOff (hγ : Done strict γ) :
    (accepting config profile fromSlice turns).run.Follows ((docket profile fromSlice).inOrder strict)
      (Act.Obliges strict) γ fun _ γ' => Done strict γ' := by
  refine Fallible.follows_loop (I := fun _ γ => Done strict γ) ?_ (fun _ _ h => h) turns hγ
  intro u γ hγ
  have herr : ∀ {γ : List Command}, ¬ strict → ∀ e : RunError,
      Fallible.Turns (fun _ γ => Done strict γ) (fun _ γ' => Done strict γ')
        (.error e : Except RunError (Unit ⊕ Empty)) γ := fun hn _ hs => absurd hs hn
  -- a client is accepted where nothing is left of what the one before has sent
  refine ⟨⟨by rintro _ _ ⟨⟩, fun hs _ _ _ => hγ hs⟩, ?_⟩
  rintro (e | src) -
  · exact waits_then (waits_log _ _) (fun _ => hγ) herr
  · refine waits_then waits_peerAddr (fun address => ?_) herr
    refine waits_then (waits_log _ _) (fun _ => ?_) herr
    refine waits_then waits_tryClone (fun _ => ?_) herr
    refine Fallible.follows_bind (?_ : (install config profile fromSlice src).run.Follows
      ((docket profile fromSlice).inOrder strict) (Act.Obliges strict) _
      fun _ γ' => Done strict γ') (fun _ _ h => h) fun _ _ h => h
    have herr' : ∀ {γ : List Command}, ¬ strict → RunError → Done strict γ :=
      fun hn _ hs => absurd hs hn
    refine waits_then waits_setChannel (fun _ => ?_) herr'
    exact waits_then (waits_log _ _) (fun _ => serve_worksOff src) herr'

/-- **The thread of the clients** has nothing to do at first, and in the end. -/
theorem closure_worksOff : (scopeClosure config profile fromSlice turns).run.discard.Follows
    (((docket profile fromSlice).through serverAct).inOrder strict)
    (serverAnswers (Act.Obliges strict)) [] fun _ γ' => Done strict γ' := by
  refine .discard (Worklist.follows_through (scopeClosure_follows (I := (· = [])) ?_ ?_ ?_ rfl))
  · rintro level message _ rfl
    exact (waits_log level message).mono fun _ _ h => h.1
  · rintro _ rfl
    exact accepting_worksOff fun _ => rfl
  · rintro e _ rfl _
    rfl

/-- Only one thread accepts clients. -/
theorem Thread.Performs.ne_accept {thread : Thread} {a : Act} (h : thread.Performs config a)
    (hnot : ∀ turns, thread ≠ .accepting turns) : a ≠ .accept := by
  rintro rfl
  cases thread with
  | accepting turns => exact hnot turns rfl
  | sensorListen groupId logFiles turns => exact h.elim id id
  | driverStatusListen turns => exact h.elim id id
  | heartbeat turns => rcases h with h | ⟨_, ⟨⟩⟩; exact h
  | handleCommand cmd =>
    rcases h with h | ⟨_, ⟨⟩⟩ | ⟨_, _, ⟨⟩⟩ | ⟨_, _, ⟨⟩⟩
    exact h
  | emergencyStop =>
    rcases h with h | ⟨_, ⟨⟩⟩ | ⟨_, _, ⟨⟩⟩
    exact h

theorem listener_not_accepting {thread : Thread} (h : thread ∈ listeners config turns) :
    ∀ turns, thread ≠ .accepting turns := by
  rintro turns' rfl
  simp [listeners] at h

theorem takes_eq_none {a : Act} (h : a.Unconcerned ∨ a = .spawnStop) (x : Option a.Ans) :
    (docket profile fromSlice).takes ⟨a, x⟩ = none := by
  rcases h with h | rfl
  · cases a with
    | op o =>
      cases o with
      | spawn cmd => exact h.elim
      | logCommand time tag cmd => exact h.elim
      | _ => rfl
    | _ => rfl
  · rfl

theorem fills_eq_none {a : Act} (h : a ≠ .accept) (x : Option a.Ans) :
    (docket profile fromSlice).fills ⟨a, x⟩ = none := by
  cases a with
  | accept => exact absurd rfl h
  | _ => rfl

/-- **The other threads** neither accept clients nor start threads for commands. -/
theorem started_all (F : Type) [F64 F] {o : ServerOp} {p : Prog ServerOp ServerOp.Ans Unit}
    (hfork : (server F config profile fromSlice).fork o = some p)
    (hlistener : ∀ thread, o = .spawnListener thread → thread ∈ listeners config turns) :
    p.All fun o => o.spawned = none ∧ o ≠ .act .accept := by
  have hall : ∀ {thread : Thread} {q : Prog Act Act.Ans Unit}, q.All (thread.Performs config) →
      (∀ turns, thread ≠ .accepting turns) →
      (ofActs q).All fun o => o.spawned = none ∧ o ≠ .act .accept := by
    intro thread q hq hnot
    refine hq.expand fun a ha => ⟨⟨?_, ?_⟩, fun _ => trivial⟩
    · have hspawn := (ha.regular hnot).2.2
      cases a with
      | op o =>
        cases o with
        | spawn cmd => exact absurd rfl (hspawn cmd)
        | _ => rfl
      | _ => rfl
    · rintro ⟨⟩
      exact ha.ne_accept hnot rfl
  cases o with
  | act a =>
    obtain ⟨q, hq, rfl⟩ := Option.map_eq_some_iff.mp hfork
    obtain ⟨thread, hthread, hperforms⟩ := fork_all config hq
    refine hall hperforms fun turns => ?_
    rcases hthread with ⟨cmd, rfl⟩ | rfl
    · rintro ⟨⟩
    · rintro ⟨⟩
  | spawnListener thread =>
    obtain rfl := Option.some.inj hfork
    exact hall (thread.program_all F config profile fromSlice)
      (listener_not_accepting (hlistener thread rfl))
  | bind => cases hfork
  | localAddr => cases hfork

/-- **The other threads** work off the command they are started for, if any, whatever is denied. -/
theorem started_worksOff (F : Type) [F64 F] {o : ServerOp} {p : Prog ServerOp ServerOp.Ans Unit}
    (hfork : (server F config profile fromSlice).fork o = some p)
    (hlistener : ∀ thread, o = .spawnListener thread → thread ∈ listeners config turns) :
    p.Follows (((docket profile fromSlice).through serverAct).inOrder True)
      (serverAnswers (Act.Obliges False)) o.spawned.toList fun _ γ' => γ' = [] := by
  refine Worklist.follows_through ?_
  cases o with
  | act a =>
    obtain ⟨q, hq, rfl⟩ := Option.map_eq_some_iff.mp hfork
    refine ofActs_follows ?_
    cases a with
    | op o =>
      cases o with
      | spawn cmd =>
        obtain rfl := Option.some.inj hq
        exact docket_lifts.expand (commandThread_worksOff cmd)
      | _ => cases hq
    | spawnStop =>
      obtain rfl := Option.some.inj hq
      have hstop : WorksOff False [] (emergencyStop config) fun _ γ' => γ' = [] :=
        worksOff_of_idle (execute_idle .emergencyStop) (execute_noPanic config .emergencyStop)
      exact docket_lifts.expand hstop.discard
    | _ => cases hq
  | spawnListener thread =>
    obtain rfl := Option.some.inj hfork
    have hmem := hlistener thread rfl
    refine ofActs_follows (((thread.program_all F config profile fromSlice).and
      (listener_unconcerned F hmem)).follows (fun a ha => ?_) (fun a x ha => ?_) rfl)
    · have hne := ha.1.ne_accept (listener_not_accepting hmem)
      exact Worklist.permits_idle (takes_eq_none (ha.2.imp_right And.left)) (fills_eq_none hne)
    · have hne := ha.1.ne_accept (listener_not_accepting hmem)
      exact Worklist.next_idle (takes_eq_none (ha.2.imp_right And.left) _) (fills_eq_none hne _)
  | bind => cases hfork
  | localAddr => cases hfork

end Closure

/-! ## 4. Runs -/

/-- What the clients that have been accepted have sent, one after the other. -/
def sentBy (profile : Profile) (fromSlice : List UInt8 → Option Command)
    (t : List (Event ServerOp.Ans)) : List Command :=
  (t.filterMap fun e => (serverAct e.call).bind clientOf).flatMap (decode profile fromSlice)

/-- And of the calls of the server. -/
def denied : Call ServerOp.Ans → Bool
  | ⟨.act a, some x⟩ => a.denied x
  | _ => false

/-- All threads have come to their ends, nothing has panicked, and the thread of the clients was denied
nothing that it cannot do without. -/
structure Served (t : List (Event ServerOp.Ans)) (s : Sys ServerOp ServerOp.Ans Controller) : Prop where
  finished : ∀ q ∈ s.threads, q.Finished
  answered : ∀ e ∈ t, e.call.ans ≠ none
  granted : ∀ e ∈ t, e.tid = 0 → denied e.call = false

/-- The commands of the threads that are started, in their order. -/
def dues (F : Type) [F64 F] (config : Configuration) (profile : Profile)
    (fromSlice : List UInt8 → Option Command) (t : List (Event ServerOp.Ans)) : List (List Command) :=
  t.filterMap fun e => ((server F config profile fromSlice).fork e.call.op).map fun _ =>
    e.call.op.spawned.toList

variable {F : Type} [F64 F] {config : Configuration} {profile : Profile}
  {fromSlice : List UInt8 → Option Command} {t : List (Event ServerOp.Ans)}
  {s : Sys ServerOp ServerOp.Ans Controller}

theorem takes_eq (c : Call ServerOp.Ans) :
    ((docket profile fromSlice).through serverAct).takes c = c.op.requested.or c.op.spawned := by
  obtain ⟨o, x⟩ := c
  cases o with
  | act a =>
    cases a with
    | op o =>
      cases o with
      | logCommand time tag cmd => cases tag <;> rfl
      | _ => rfl
    | _ => rfl
  | _ => rfl

theorem spawned_eq_none {o : ServerOp} (h : (server F config profile fromSlice).fork o = none) :
    o.spawned = none := by
  cases o with
  | act a =>
    cases a with
    | op o =>
      cases o with
      | spawn cmd => cases h
      | _ => rfl
    | _ => rfl
  | _ => rfl

theorem flatten_dues (t : List (Event ServerOp.Ans)) :
    (dues F config profile fromSlice t).flatten = t.filterMap fun e => e.call.op.spawned := by
  induction t with
  | nil => rfl
  | cons e t ih =>
    unfold dues at ih ⊢
    cases hf : (server F config profile fromSlice).fork e.call.op with
    | none => simp [hf, spawned_eq_none hf, ih]
    | some p => cases ho : e.call.op.spawned <;> simp [hf, ho, ih]

/-- A thread that an operation has started: its command, and what it takes up. -/
structure Worker (F : Type) [F64 F] (config : Configuration) (profile : Profile)
    (fromSlice : List UInt8 → Option Command) (t : List (Event ServerOp.Ans)) (i : Nat)
    (due : List Command) (p q : Prog ServerOp ServerOp.Ans Unit) : Prop where
  listed : (dues F config profile fromSlice t)[i]? = some due
  follows : p.Follows (((docket profile fromSlice).through serverAct).inOrder True)
    (serverAnswers (Act.Obliges False)) due fun _ γ' => γ' = []
  steps : Prog.Steps p (history (i + 1) t) q
  all : p.All fun o => o.spawned = none ∧ o ≠ .act .accept

/-- Nothing is asked of the answers to who is not strict. -/
theorem answers_of_not_strict (o : ServerOp) (x : o.Ans) :
    serverAnswers (Act.Obliges False) o x := by
  cases o with
  | act a => exact False.elim
  | _ => trivial

section Worker

variable {i : Nat} {due : List Command} {p q : Prog ServerOp ServerOp.Ans Unit}
  (h : Worker F config profile fromSlice t i due p q)

include h

/-- Such a thread takes up only its command, by requesting it. -/
theorem Worker.calls :
    (history (i + 1) t).filterMap ((docket profile fromSlice).through serverAct).takes
        = (history (i + 1) t).filterMap (fun c => c.op.requested) ∧
      (history (i + 1) t).filterMap ((docket profile fromSlice).through serverAct).fills = [] := by
  have hcalls := (h.steps.all h.all).1
  constructor
  · refine List.filterMap_congr fun c hc => ?_
    rw [takes_eq, (hcalls c hc).1, Option.or_none]
  · rw [List.filterMap_eq_nil_iff]
    rintro ⟨o, x⟩ hc
    cases o with
    | act a => exact fills_eq_none (fun ha => (hcalls _ hc).2 (congrArg ServerOp.act ha)) x
    | _ => rfl

theorem Worker.sublist :
    (history (i + 1) t).filterMap (fun c => c.op.requested) <+ due := by
  have htakes := Worklist.takes_sublist h.follows h.steps fun c _ x _ => answers_of_not_strict c.op x
  rwa [h.calls.1, h.calls.2, List.flatten_nil, List.append_nil] at htakes

theorem Worker.eq (hq : q.Finished) (hans : ∀ e ∈ t, e.call.ans ≠ none) :
    (history (i + 1) t).filterMap (fun c => c.op.requested) = due := by
  have htakes := Worklist.takes_all trivial h.follows h.steps hq
    (fun c _ x _ => answers_of_not_strict c.op x) (forall_mem_history fun e he _ => hans e he)
  rwa [h.calls.1, h.calls.2, List.flatten_nil, List.append_nil] at htakes

end Worker

section Runs

variable {turns : Nat} {lines : List Bool}
  (hrun : Run (server F config profile fromSlice) (serverOf config profile fromSlice turns lines) t s)

include hrun

/-- Every thread but the first is such a thread. -/
theorem worker_of_run {i : Nat} {q : Prog ServerOp ServerOp.Ans Unit} (hq : s.threads[i + 1]? = some q) :
    ∃ due p, Worker F config profile fromSlice t i due p q := by
  obtain ⟨p, hp, hsteps⟩ := hrun.program hq
  rw [programs, List.getElem?_append_right (Nat.le_add_left 1 i)] at hp
  obtain ⟨e, he, hfork, hdue⟩ := getElem?_filterMap_map (g := fun e => e.call.op.spawned.toList) hp
  have hlistener : ∀ thread, e.call.op = .spawnListener thread → thread ∈ listeners config turns := by
    intro thread hop
    refine (listeners_of_run hrun).mem (List.mem_filterMap.mpr ⟨e, he, ?_⟩)
    obtain ⟨tid, ⟨o, x⟩⟩ := e
    subst hop
    rfl
  exact ⟨_, p, hdue, started_worksOff F hfork hlistener, hsteps, started_all F hfork hlistener⟩

/-- Only the thread of the clients starts threads for commands. -/
theorem calls_of_tid_ne {e : Event ServerOp.Ans} (he : e ∈ t) (htid : e.tid ≠ 0) :
    e.call.op.spawned = none ∧ (serverAct e.call).bind clientOf = none := by
  obtain ⟨q, hq⟩ := hrun.thread_of_mem he
  obtain ⟨i, hi⟩ := Nat.exists_eq_succ_of_ne_zero htid
  rw [hi] at hq
  obtain ⟨due, p, hworker⟩ := worker_of_run hrun hq
  obtain ⟨hspawned, haccept⟩ :=
    (hworker.steps.all hworker.all).1 e.call (mem_history.mpr ⟨e, he, hi, rfl⟩)
  refine ⟨hspawned, ?_⟩
  obtain ⟨tid, ⟨o, x⟩⟩ := e
  cases o with
  | act a =>
    cases a with
    | accept => exact absurd rfl haccept
    | _ => rfl
  | _ => rfl

/-- What there is to do for all threads: the thread of the clients requests what it requests, and each of
the others its command. -/
theorem perm_sent :
    ((history 0 t).filterMap (fun c => c.op.requested) :: dues F config profile fromSlice t).flatten ~
      (history 0 t).filterMap ((docket profile fromSlice).through serverAct).takes := by
  have hone : ∀ c : Call ServerOp.Ans, c.op.requested = none ∨ c.op.spawned = none := by
    rintro ⟨o, x⟩
    cases o with
    | act a =>
      cases a with
      | op o =>
        cases o with
        | logCommand time tag cmd => exact Or.inr rfl
        | _ => exact Or.inl rfl
      | _ => exact Or.inl rfl
    | _ => exact Or.inl rfl
  have hspawned : (t.filterMap fun e => e.call.op.spawned)
      = (history 0 t).filterMap fun c => c.op.spawned :=
    filterMap_history (f := fun c => c.op.spawned) fun e he htid => (calls_of_tid_ne hrun he htid).1
  rw [List.flatten_cons, flatten_dues, hspawned]
  refine (filterMap_or_perm hone _).trans (.of_eq ?_)
  exact List.filterMap_congr fun c _ => (takes_eq c).symm

theorem fills_eq_sentBy :
    ((history 0 t).filterMap ((docket profile fromSlice).through serverAct).fills).flatten
      = sentBy profile fromSlice t := by
  have hclients : (t.filterMap fun e => (serverAct e.call).bind clientOf)
      = (history 0 t).filterMap fun c => (serverAct c).bind clientOf :=
    filterMap_history (f := fun c => (serverAct c).bind clientOf)
      fun e he htid => (calls_of_tid_ne hrun he htid).2
  rw [sentBy, hclients, List.flatMap_def, List.map_filterMap]
  refine congrArg List.flatten (List.filterMap_congr fun c _ => ?_)
  exact (Option.map_bind ..).symm

theorem length_threads : s.threads.length = (dues F config profile fromSlice t).length + 1 := by
  rw [hrun.length_programs, programs, List.length_append, dues, length_filterMap_map, Nat.add_comm]
  rfl

/-- Every thread in its place. -/
theorem tid_lt {requests : List Command} :
    ∀ e ∈ t, e.tid < (requests :: dues F config profile fromSlice t).length := by
  intro e he
  obtain ⟨q, hq⟩ := hrun.thread_of_mem he
  rw [List.length_cons, ← length_threads hrun]
  exact (List.getElem?_eq_some_iff.mp hq).1

/-- The threads that have been started, one after the other. -/
theorem worker_of_lt {requests : List Command} {i : Nat}
    (hi : i + 1 < (requests :: dues F config profile fromSlice t).length) :
    ∃ due p q, q ∈ s.threads ∧ Worker F config profile fromSlice t i due p q ∧
      (requests :: dues F config profile fromSlice t).getD (i + 1) [] = due := by
  rw [List.length_cons, ← length_threads hrun] at hi
  obtain ⟨due, p, hworker⟩ := worker_of_run hrun (List.getElem?_eq_getElem hi)
  refine ⟨due, p, _, List.getElem_mem hi, hworker, ?_⟩
  rw [List.getD_cons_succ, List.getD_eq_getElem?_getD, hworker.listed, Option.getD_some]

theorem subperm_taken :
    (t.filterMap fun e => e.call.op.requested) <+~
      (history 0 t).filterMap ((docket profile fromSlice).through serverAct).takes := by
  refine (subperm_of_histories (f := fun c => c.op.requested) (tid_lt hrun) ?_).trans
    (perm_sent hrun).subperm
  rintro (_ | i) hi
  · exact .refl _
  · obtain ⟨due, p, q, -, hworker, hdue⟩ := worker_of_lt hrun hi
    rw [hdue]
    exact hworker.sublist.subperm

theorem perm_taken (hfinished : ∀ q ∈ s.threads, q.Finished)
    (hans : ∀ e ∈ t, e.call.ans ≠ none) :
    (t.filterMap fun e => e.call.op.requested) ~
      (history 0 t).filterMap ((docket profile fromSlice).through serverAct).takes := by
  refine (perm_of_histories (f := fun c => c.op.requested) (tid_lt hrun) ?_).trans (perm_sent hrun)
  rintro (_ | i) hi
  · exact .refl _
  · obtain ⟨due, p, q, hq, hworker, hdue⟩ := worker_of_lt hrun hi
    rw [hdue, hworker.eq (hfinished q hq) hans]

/-- **The thread of the clients** takes up what they have sent, in order. -/
theorem taken_sublist :
    (history 0 t).filterMap ((docket profile fromSlice).through serverAct).takes <+
      sentBy profile fromSlice t := by
  obtain ⟨q, -, hsteps⟩ := hrun.steps (i := 0) rfl
  have hfollows : (scopeClosure config profile fromSlice turns).run.discard.Follows
      (((docket profile fromSlice).through serverAct).inOrder False)
      (serverAnswers (Act.Obliges False)) [] fun _ γ' => Done False γ' := closure_worksOff
  have htakes := Worklist.takes_sublist hfollows hsteps fun c _ x _ => answers_of_not_strict c.op x
  rwa [List.nil_append, fills_eq_sentBy hrun] at htakes

/-- And all of it, if it is denied nothing. -/
theorem taken_eq (hserved : Served t s) :
    (history 0 t).filterMap ((docket profile fromSlice).through serverAct).takes
      = sentBy profile fromSlice t := by
  obtain ⟨q, hq, hsteps⟩ := hrun.steps (i := 0) rfl
  have hanswer : ∀ e ∈ t, e.tid = 0 → ∀ x, e.call.ans = some x →
      serverAnswers (Act.Obliges True) e.call.op x := by
    intro e he htid
    have hgranted := hserved.granted e he htid
    have horderly := orderly_of_run hrun e he
    refine serverAnswers_of_acts fun a x hcall _ => ?_
    rw [hcall] at hgranted horderly
    exact ⟨hgranted, horderly⟩
  have htakes := Worklist.takes_all trivial (closure_worksOff.mono fun _ _ h => h trivial) hsteps
    (hserved.finished q (List.mem_of_getElem? hq)) (forall_mem_history hanswer)
    (forall_mem_history fun e he _ => hserved.answered e he)
  rwa [List.nil_append, fills_eq_sentBy hrun] at htakes

end Runs

/-- **No command is lost or duplicated**, whatever the clients send and however the threads run.  What all
threads together request is, up to the order, a part of what the clients have sent; the thread of the
clients takes it up in their order; and where the run is through, and was served, it is all of it. -/
theorem commands_conserved (F : Type) [F64 F] (config : Configuration) (profile : Profile)
    (fromSlice : List UInt8 → Option Command) (turns : Nat) (lines : List Bool)
    (t : List (Event ServerOp.Ans)) (s : Sys ServerOp ServerOp.Ans Controller)
    (hrun : Run (server F config profile fromSlice) (serverOf config profile fromSlice turns lines)
      t s) :
    (t.filterMap fun e => e.call.op.requested) <+~ sentBy profile fromSlice t ∧
    ((history 0 t).filterMap fun c => c.op.requested.or c.op.spawned) <+ sentBy profile fromSlice t ∧
    (Served t s →
      (t.filterMap fun e => e.call.op.requested) ~ sentBy profile fromSlice t ∧
      ((history 0 t).filterMap fun c => c.op.requested.or c.op.spawned)
        = sentBy profile fromSlice t) := by
  have htaken : (history 0 t).filterMap ((docket profile fromSlice).through serverAct).takes
      = (history 0 t).filterMap fun c => c.op.requested.or c.op.spawned :=
    List.filterMap_congr fun c _ => takes_eq c
  refine ⟨(subperm_taken hrun).trans (taken_sublist hrun).subperm, ?_, fun hserved => ⟨?_, ?_⟩⟩
  · rw [← htaken]
    exact taken_sublist hrun
  · have hperm := perm_taken hrun hserved.finished hserved.answered
    rwa [taken_eq hrun hserved] at hperm
  · rw [← htaken]
    exact taken_eq hrun hserved

/-- A client asks for a stop, and the run goes on to its end: the stop is requested, and nothing else. -/
theorem stop_is_conserved : ∃ t s,
    Run (server ℚ (.oneDriver [] [.actuate 0 true]) .release fun _ => some .emergencyStop)
      (serverOf (.oneDriver [] [.actuate 0 true]) .release (fun _ => some .emergencyStop) 1 [false])
      t s ∧ Served t s ∧ (t.filterMap fun e => e.call.op.requested) ~ [.emergencyStop] := by
  obtain ⟨t, s, hrun, hp⟩ := exists_guardedRun
    (M := server ℚ (.oneDriver [] [.actuate 0 true]) .release fun _ => some .emergencyStop)
    (C := fun _ _ e => e.call.ans.isSome && !denied e.call)
    (G := fun _ _ e => e.call.ans ≠ none ∧ denied e.call = false)
    (fun _ _ e h => by simpa [Option.isSome_iff_ne_none] using h)
    (List.replicate 43 (0, { ServerWorld.fine with incoming := .ok (.ofBytes [123, 125]) }) ++
      List.replicate 17 (1, ServerWorld.fine) ++ List.replicate 11 (2, ServerWorld.fine) ++
      List.replicate 23 (3, ServerWorld.fine))
    (s := serverOf (.oneDriver [] [.actuate 0 true]) .release (fun _ => some .emergencyStop) 1
      [false])
    (P := fun t s => decide (sentBy .release (fun _ => some .emergencyStop) t = [.emergencyStop]) &&
      s.threads.all fun q => q.pending.isNone) (by decide +kernel)
  simp only [Bool.and_eq_true, List.all_eq_true, decide_eq_true_eq, Option.isNone_iff_eq_none,
    Prog.pending_eq_none] at hp
  have hevents := hrun.forall_mem fun _ _ _ _ h _ => h
  have hserved : Served t s := ⟨hp.2, fun e he => (hevents e he).1, fun e he _ => (hevents e he).2⟩
  refine ⟨t, s, hrun.run, hserved, ?_⟩
  rw [← hp.1]
  exact ((commands_conserved ℚ (.oneDriver [] [.actuate 0 true]) .release
    (fun _ => some .emergencyStop) 1 [false] t s hrun.run).2.2 hserved).1

end Slonk
