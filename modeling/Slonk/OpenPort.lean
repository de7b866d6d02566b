/-
# The accept loop and its clients

`run` accepts clients one after the other.  An error of the listener is reported and the next client
awaited; an error of `handle_client` is dropped: "keep the port open even in error cases".  But the
address of a client is asked for, and its stream cloned, with `?`, so a client that has gone by then
ends the loop, and with it the only way to send a command.

`connecting` follows the accept thread: has such a question been answered with an error, and how many
times has the listener been asked.  While no lock is poisoned and no log writer fails, that is the
only error the loop can return, and a panic is in the braces of a message or in a driver line that
does not exist (`port_open_unless_connection_fails`).
-/
import Slonk.Nesting
import Slonk.Sequential

namespace Slonk

open Concurrency

/-! ## 1. The property -/

/-- A log writer has failed. -/
def logFails : Call Act.Ans → Bool
  | ⟨.op (.userLog _ _), some (.error ())⟩ => true
  | ⟨.op (.logCommand _ _ _), some (.error .io)⟩ => true
  | ⟨.op (.send _), some (.error .logFile)⟩ => true
  | ⟨.writeDriverLog _ _, some (.error ())⟩ => true
  | ⟨.writeSensorLog _ _, some (.error ())⟩ => true
  | _ => false

/-- The address or the clone of an accepted stream was not to be had. -/
def connectionFails : Call Act.Ans → Bool
  | ⟨.peerAddr, some (.error _)⟩ => true
  | ⟨.tryClone, some (.error _)⟩ => true
  | _ => false

/-- Does some message of the stream overflow the count of its braces? -/
def overflows (profile : Profile) (fromSlice : List UInt8 → Option Command) : Nat → Source → Bool
  | 0, _ => false
  | fuel + 1, src =>
    match Command.parse profile fromSlice src with
    | (none, _) => true
    | (some (.error (.io .unexpectedEof)), _) => false
    | (some (.error (.io .connectionReset)), _) => false
    | (some _, src') => overflows profile fromSlice fuel src'

/-- What closes the port: a connection that fails, a client that overflows `Command::parse`, and one
that has a driver actuated for which there is no line. -/
def closes (profile : Profile) (fromSlice : List UInt8 → Option Command) (c : Controller)
    (call : Call Act.Ans) : Bool :=
  connectionFails call || match call with
    | ⟨.accept, some (.ok src)⟩ => overflows profile fromSlice (src.length + 1) src
    | ⟨.op (.write driverId _), _⟩ => decide (c.shared.driverLines.val.length ≤ driverId.toNat)
    | _ => false

/-- Has the listener been asked for a client? -/
def accepts : Call Act.Ans → Nat
  | ⟨.accept, _⟩ => 1
  | _ => 0

/-- **The port is open**: after these calls the accept loop is still running, or it has asked for a
client in every turn it was given. -/
def PortOpen (config : Configuration) (profile : Profile)
    (fromSlice : List UInt8 → Option Command) (turns : Nat) (h : List (Call Act.Ans)) : Prop :=
  ∃ p, Prog.Steps (accepting config profile fromSlice turns).run h p ∧
    match p with
    | .op _ _ => True
    | .ret r => (∃ a, r = .ok a) ∧ (h.map accepts).sum = turns
    | .panic => False

/-- How operations answer when no lock is poisoned, no log writer fails, and no client overflows
`Command::parse`. -/
def Smooth (profile : Profile) (fromSlice : List UInt8 → Option Command) (a : Act) (x : a.Ans) :
    Prop :=
  Unpoisoned a x ∧ match a, x with
    | .op (.userLog _ _), r => r = .ok ()
    | .accept, .ok src => overflows profile fromSlice (src.length + 1) src = false
    | _, _ => True

variable {config : Configuration} {profile : Profile} {fromSlice : List UInt8 → Option Command}
  {α β : Type}

theorem smooth_of_call {a : Act} {x : a.Ans} (hu : Unpoisoned a x)
    (hlog : logFails ⟨a, some x⟩ = false)
    (hparse : ∀ src, (⟨a, some x⟩ : Call Act.Ans) = ⟨.accept, some (.ok src)⟩ →
      overflows profile fromSlice (src.length + 1) src = false) : Smooth profile fromSlice a x := by
  refine ⟨hu, ?_⟩
  cases a with
  | op o =>
    cases o with
    | userLog level message =>
      match x with
      | .ok () => rfl
      | .error () => exact absurd hlog (by simp [logFails])
    | _ => trivial
  | accept =>
    match x with
    | .ok src => exact hparse src rfl
    | .error e => trivial
  | _ => trivial

/-! ## 2. The accept thread -/

/-- Has a question about a connection failed, and how many clients were asked for? -/
structure Progress where
  failed : Bool
  accepted : Nat

/-- After a failed connection nothing more is done.  There is no reason to panic. -/
def connecting : Protocol Act Act.Ans Progress where
  permits γ a := γ.failed = false ∧ ∀ guards, a ≠ .unwind guards
  aborts _ := False
  next γ c := ⟨γ.failed || connectionFails c, γ.accepted + accepts c⟩

/-- The operations that are neither about a connection nor a panic. -/
def Act.NoConnection : Act → Prop
  | accept | peerAddr | tryClone | unwind _ => False
  | _ => True

/-- The program returns, no connection has failed, and the listener has not been asked. -/
abbrev Undisturbed (profile : Profile) (fromSlice : List UInt8 → Option Command) (n : Nat)
    (p : Prog Act Act.Ans α) (Q : α → Prop) : Prop :=
  p.Follows connecting (Smooth profile fromSlice) ⟨false, n⟩ fun a γ => Q a ∧ γ = ⟨false, n⟩

variable {n : Nat}

theorem undisturbed_op {a : Act} (ha : a.NoConnection) {k : a.Ans → Prog Act Act.Ans α}
    {Q : α → Prop}
    (hk : ∀ x, Smooth profile fromSlice a x → Undisturbed profile fromSlice n (k x) Q) :
    Undisturbed profile fromSlice n (.op a k) Q := by
  have hnext : ∀ x : a.Ans, connecting.next ⟨false, n⟩ ⟨a, some x⟩ = ⟨false, n⟩ := by
    intro x
    cases a <;> first | rfl | exact ha.elim
  refine ⟨⟨rfl, ?_⟩, fun x hx => ?_⟩
  · rintro guards rfl
    exact ha
  · rw [hnext x]
    exact hk x hx

theorem undisturbed_guarded {l : Lock} {mode : Mode} {p : Bool → Prog Act Act.Ans α} {Q : α → Prop}
    (hp : Undisturbed profile fromSlice n (p false) Q) :
    Undisturbed profile fromSlice n (Prog.guarded (.acquire l mode) p (.release l)) Q := by
  refine Prog.Follows.guarded (P := fun a γ => Q a ∧ γ = ⟨false, n⟩) ⟨rfl, nofun⟩ (fun poisoned hpoisoned => ?_) ?_
  · obtain rfl : poisoned = false := hpoisoned.1
    exact hp
  · rintro r _ ⟨hQ, rfl⟩
    exact ⟨⟨rfl, nofun⟩, fun _ _ => ⟨hQ, rfl⟩⟩

theorem undisturbed_bind {p : Routine RunError α} {f : α → Routine RunError β}
    {Q : Except RunError β → Prop}
    (hp : Undisturbed profile fromSlice n p.run fun r => ∃ a, r = .ok a)
    (hf : ∀ a, Undisturbed profile fromSlice n (f a).run Q) :
    Undisturbed profile fromSlice n (p >>= f).run Q := by
  refine Fallible.follows_bind hp ?_ ?_
  · rintro a _ ⟨-, rfl⟩
    exact hf a
  · rintro e _ ⟨⟨a, ha⟩, -⟩
    cases ha

theorem undisturbed_writeLog (guards : List Lock) (level : LogLevel) (message : UserMessage) :
    Undisturbed profile fromSlice n (writeLog guards level message) fun r => r = .ok () :=
  undisturbed_guarded (undisturbed_op (a := .op (.userLog level message)) trivial
    fun _ hr => ⟨hr.2, rfl⟩)

/-- A line of the user log is written. -/
theorem undisturbed_log (level : LogLevel) (message : UserMessage) :
    Undisturbed profile fromSlice n (Routine.log [] level message).run fun r => ∃ a, r = .ok a := by
  refine Prog.Follows.bind ((undisturbed_writeLog [] level message).mono ?_)
  rintro r _ ⟨rfl, rfl⟩
  exact ⟨⟨(), rfl⟩, rfl⟩

/-- The operations of `Operations.lean`, with their locks. -/
theorem undisturbed_critical (o : Op) :
    Undisturbed profile fromSlice n (critical o) fun _ => True := by
  have hperform : ∀ o, Undisturbed profile fromSlice n (perform o) fun _ => True :=
    fun o => undisturbed_op (a := .op o) trivial fun _ _ => ⟨trivial, rfl⟩
  have hrelease : ∀ {α : Type} (l : Lock) (r : α),
      Undisturbed profile fromSlice n (.op (.release l) fun _ => .ret r) fun _ => True :=
    fun l _ => undisturbed_op (a := .release l) trivial fun _ _ => ⟨trivial, rfl⟩
  cases o with
  | moveTo newState => exact undisturbed_guarded (hperform _)
  | write driverId value => exact undisturbed_guarded (hperform _)
  | sleep duration => exact hperform _
  | now => exact hperform _
  | spawn cmd => exact hperform _
  | send message => exact undisturbed_guarded (undisturbed_guarded (hperform _))
  | logCommand time tag cmd =>
    refine undisturbed_op (a := .acquire .cmdLog .exclusive) trivial fun _ _ =>
      Prog.Follows.bind ((hperform _).mono ?_)
    rintro r _ ⟨-, rfl⟩
    match r with
    | .ok () => exact hrelease _ _
    | .error .poisoned => exact hrelease _ _
    | .error .io => exact ⟨trivial, rfl⟩
  | userLog level message =>
    have hwrite : ∀ guards, Undisturbed profile fromSlice n (writeLog guards level message)
        fun _ => True := fun guards =>
      (undisturbed_writeLog guards level message).mono fun _ _ h => ⟨trivial, h.2⟩
    unfold critical
    dsimp only
    split
    · refine Prog.Follows.bind ((hwrite _).mono ?_)
      rintro r _ ⟨-, rfl⟩
      exact hrelease _ _
    · exact hwrite _

/-- A program that does not panic by itself. -/
theorem undisturbed_expand {p : Prog Op Op.Ans α} (hp : p.NoPanic) :
    Undisturbed profile fromSlice n (p.expand critical) fun _ => True := by
  induction p with
  | ret a => exact ⟨trivial, rfl⟩
  | panic => exact hp.elim
  | op o k ih =>
    refine Prog.Follows.bind ((undisturbed_critical o).mono ?_)
    rintro a _ ⟨-, rfl⟩
    exact ih a (hp a)

/-! ## 3. A client -/

theorem logUser_noPanic (level : LogLevel) (message : UserMessage) :
    (logUser level message).run.NoPanic := by
  intro a
  cases a <;> trivial

theorem handleMessage_noPanic (config : Configuration) (r : Except IncomingError Command) :
    (handleMessage config r).run.NoPanic := by
  have hlog : ∀ (level : LogLevel) (message : UserMessage) (b : Bool), (do
      logUser level message
      pure b : Proc ControllerError Bool).run.NoPanic := fun level message b =>
    Fallible.noPanic_bind (logUser_noPanic level message) fun _ => trivial
  have hspawn : ∀ cmd, (do
      spawn cmd
      logUser .debug (.text "Finished executing command.")
      pure true : Proc ControllerError Bool).run.NoPanic := fun cmd =>
    Fallible.noPanic_bind (fun _ => trivial) fun _ => hlog _ _ _
  match r with
  | .error (.malformed message) => exact hlog _ _ _
  | .error (.io .unexpectedEof) => exact hlog _ _ _
  | .error (.io .connectionReset) => exact hlog _ _ _
  | .error (.io .interrupted) => exact hlog _ _ _
  | .error (.io (.other d)) => exact hlog _ _ _
  | .ok .ignition => exact hspawn _
  | .ok .emergencyStop => exact hspawn _
  | .ok (.actuate driverId value) =>
    refine Fallible.noPanic_bind (Fallible.noPanic_bind (p := ExceptT.lift (handleCommand config _).run) ?_ ?_)
      fun _ => trivial
    · exact (handleCommand_noPanic config _).bind fun _ => trivial
    · rintro (e | u)
      · exact logUser_noPanic _ _
      · exact logUser_noPanic _ _

/-- A loop that does not run out of turns. -/
theorem handleClientLoop_noPanic : ∀ {fuel : Nat} {src : Source}, src.length < fuel →
    overflows profile fromSlice fuel src = false →
    (handleClientLoop config profile fromSlice fuel src).run.NoPanic
  | fuel + 1, src, hfuel, h => by
    unfold overflows at h
    unfold handleClientLoop
    obtain ⟨parsed, src', hp⟩ : ∃ parsed src', Command.parse profile fromSlice src = (parsed, src') :=
      ⟨_, _, rfl⟩
    rw [hp] at h ⊢
    cases parsed with
    | none => cases h
    | some result =>
      have hgo : result ≠ .error (.io .unexpectedEof) → overflows profile fromSlice fuel src' = false →
          (handleMessage config result >>= fun b =>
            if b then handleClientLoop config profile fromSlice fuel src' else pure ()).run.NoPanic := by
        intro hr hrest
        have hlt := parse_length hp fun heq => hr (Option.some.inj heq)
        refine Fallible.noPanic_bind (handleMessage_noPanic config result) ?_
        rintro (_ | _)
        · trivial
        · exact handleClientLoop_noPanic (by omega) hrest
      -- the two errors after which the loop is left
      have hend : ∀ f : Proc ControllerError Unit, (handleMessage config (.error (.io .unexpectedEof))
          >>= fun b => if b then f else pure ()).run.NoPanic := by
        intro f
        rw [handleMessage_eof]
        exact Fallible.noPanic_bind (logUser_noPanic _ _) fun _ => trivial
      cases result with
      | ok cmd => exact hgo (by simp) h
      | error e =>
        cases e with
        | malformed message => exact hgo (by simp) h
        | io kind =>
          cases kind with
          | unexpectedEof => exact hend _
          | connectionReset => exact hend _
          | interrupted => exact hgo (by simp) h
          | other description => exact hgo (by simp) h

theorem handleClient_noPanic {src : Source}
    (h : overflows profile fromSlice (src.length + 1) src = false) :
    (handleClient config profile fromSlice src).run.NoPanic := by
  have hsend : (send (.config config)).run.NoPanic := by
    intro a
    cases a <;> trivial
  exact Fallible.noPanic_bind hsend fun _ => Fallible.noPanic_bind (logUser_noPanic _ _) fun _ =>
    handleClientLoop_noPanic (Nat.lt_succ_self _) h

/-- **From the clone on** nothing leaves the loop: the channel is installed, and what
`handle_client` returns is dropped. -/
theorem undisturbed_install {src : Source}
    (h : overflows profile fromSlice (src.length + 1) src = false) :
    Undisturbed profile fromSlice n (install config profile fromSlice src).run
      fun r => ∃ a, r = .ok a := by
  refine undisturbed_bind ?_ fun _ => undisturbed_bind (undisturbed_log _ _) fun _ => ?_
  · refine undisturbed_guarded (undisturbed_op (a := .setChannel) trivial fun r hr => ?_)
    obtain rfl : r = .ok () := hr.1
    exact ⟨⟨(), rfl⟩, rfl⟩
  · refine Prog.Follows.bind ((undisturbed_expand (handleClient_noPanic h)).mono ?_)
    rintro r _ ⟨-, rfl⟩
    exact ⟨⟨(), rfl⟩, rfl⟩

/-! ## 4. The loop -/

/-- How a part of the loop ends that asks for so many clients: with an error exactly when a
connection has failed. -/
def Ends (n : Nat) (r : Except RunError α) (γ : Progress) : Prop :=
  match r with
  | .ok _ => γ = ⟨false, n⟩
  | .error _ => γ.failed = true

/-- A question about a connection, and what follows its answer. -/
theorem ends_attempt {a : Act} (ha : a = .peerAddr ∨ a = .tryClone) {f : a.Ans → Except RunError β}
    (hf : ∀ x, connectionFails ⟨a, some x⟩ = true ↔ ∃ e, f x = .error e)
    {k : β → Routine RunError α} {m : Nat}
    (hk : ∀ b, (k b).run.Follows connecting (Smooth profile fromSlice) ⟨false, n⟩ (Ends m)) :
    (Fallible.attempt a f >>= k).run.Follows connecting (Smooth profile fromSlice) ⟨false, n⟩
      (Ends m) := by
  refine ⟨⟨rfl, ?_⟩, fun x _ => ?_⟩
  · rintro guards rfl
    rcases ha with ha | ha <;> cases ha
  have hnext : connecting.next ⟨false, n⟩ ⟨a, some x⟩ = ⟨connectionFails ⟨a, some x⟩, n⟩ := by
    rcases ha with rfl | rfl <;> rfl
  rw [hnext]
  show (Fallible.onOk k (f x)).Follows connecting (Smooth profile fromSlice) _ (Ends m)
  cases hx : f x with
  | error e => exact (hf x).mpr ⟨e, hx⟩
  | ok b =>
    have hnot : connectionFails ⟨a, some x⟩ = false := by
      rw [Bool.eq_false_iff]
      intro h
      obtain ⟨e, he⟩ := (hf x).mp h
      rw [hx] at he
      cases he
    rw [hnot]
    exact hk b

/-- What is sure to succeed, and what follows it. -/
theorem ends_bind {p : Routine RunError α} {f : α → Routine RunError β} {m : Nat}
    (hp : Undisturbed profile fromSlice n p.run fun r => ∃ a, r = .ok a)
    (hf : ∀ a, (f a).run.Follows connecting (Smooth profile fromSlice) ⟨false, n⟩ (Ends m)) :
    (p >>= f).run.Follows connecting (Smooth profile fromSlice) ⟨false, n⟩ (Ends m) := by
  refine Fallible.follows_bind hp ?_ ?_
  · rintro a _ ⟨-, rfl⟩
    exact hf a
  · rintro e _ ⟨⟨a, ha⟩, -⟩
    cases ha

/-- **One turn.**  A question about the connection that fails ends the loop, and nothing else
does. -/
theorem ends_acceptTurn (n : Nat) :
    (acceptTurn config profile fromSlice ()).run.Follows connecting (Smooth profile fromSlice)
      ⟨false, n⟩ (Ends (n + 1)) := by
  refine ⟨⟨rfl, nofun⟩, fun x hx => ?_⟩
  show Prog.Follows connecting _ ⟨false, n + 1⟩ _ _
  match x, hx with
  | .error e, _ => exact ends_bind (undisturbed_log .warn (.failedClient e)) fun _ => rfl
  | .ok src, hx =>
    refine ends_attempt (Or.inl rfl) (fun x => ?_) fun address =>
      ends_bind (undisturbed_log _ _) fun _ => ends_attempt (Or.inr rfl) (fun x => ?_) fun _ =>
      ends_bind (undisturbed_install hx.2) fun _ => rfl
    · cases x <;> simp [connectionFails, Except.mapError]
    · cases x <;> simp [connectionFails, Except.mapError]

/-- **The loop** asks for a client in each of its turns. -/
theorem ends_loop : ∀ turns n : Nat,
    (Fallible.loop (acceptTurn config profile fromSlice) turns ()).run.Follows connecting
      (Smooth profile fromSlice) ⟨false, n⟩ (Ends (n + turns))
  | 0, n => rfl
  | turns + 1, n => by
    refine Fallible.follows_bind (ends_acceptTurn n) ?_ fun _ _ h => h
    rintro (⟨⟩ | b) γ h
    · obtain rfl : γ = ⟨false, n + 1⟩ := h
      have hadd : n + (turns + 1) = n + 1 + turns := by omega
      rw [hadd]
      exact ends_loop turns (n + 1)
    · exact b.elim

theorem after_connecting (h : List (Call Act.Ans)) (γ : Progress) :
    connecting.after γ h = ⟨γ.failed || h.any connectionFails, γ.accepted + (h.map accepts).sum⟩ := by
  induction h generalizing γ with
  | nil => simp
  | cons c h ih =>
    rw [Protocol.after_cons, ih]
    simp [connecting, Bool.or_assoc, Nat.add_assoc]

/-! ## 5. The condition -/

section Runs

variable {F : Type} [F64 F] {threads : List Thread} {c : Controller} {i turns : Nat}
  {t : List (Event Act.Ans)} {s : Sys Act Act.Ans Controller}

/-- What is left of the accept thread follows the protocol, and it has performed no panic. -/
theorem accepting_follows {G : Sys Act Act.Ans Controller → Event Act.Ans → Prop}
    (hG : ∀ s e, G s e → s.shared.Sound ∧ (e.tid = i → logFails e.call = false ∧
      ∀ src, e.call = ⟨.accept, some (.ok src)⟩ →
        overflows profile fromSlice (src.length + 1) src = false))
    (hi : threads[i]? = some (.accepting turns))
    (hrun : ControllerRun F config profile fromSlice (fun _ s e => G s e) threads c t s) :
    ∃ p, Prog.Steps (accepting config profile fromSlice turns).run (history i t) p ∧
      (∀ call ∈ history i t, ∀ guards, call.op ≠ .unwind guards) ∧
      ((p = .panic ∧ ∃ call ∈ history i t, call.ans = none) ∨
        p.Follows connecting (Smooth profile fromSlice)
          ⟨(history i t).any connectionFails, ((history i t).map accepts).sum⟩ (Ends turns)) := by
  obtain ⟨p, -, hsteps⟩ := hrun.routine hi rfl
  have hsound := hrun.sound fun _ s e hg => (hG s e hg).1
  have hA : ∀ call ∈ history i t, ∀ x, call.ans = some x → Smooth profile fromSlice call.op x := by
    intro call hcall x hx
    obtain ⟨e, he, htid, rfl⟩ := mem_history.mp hcall
    obtain ⟨hlog, hparse⟩ := hrun.forall_mem (P := fun e => e.tid = i → logFails e.call = false ∧
      ∀ src, e.call = ⟨.accept, some (.ok src)⟩ →
        overflows profile fromSlice (src.length + 1) src = false)
      (fun _ s e _ hg _ => (hG s e hg.2).2) e he htid
    have hcall : e.call = ⟨e.call.op, some x⟩ := by rw [← hx]
    exact smooth_of_call ((hsound e he).1 x hx) (hcall ▸ hlog)
      fun src hsrc => hparse src (hcall.trans hsrc)
  have hloop : (accepting config profile fromSlice turns).run.Follows connecting
      (Smooth profile fromSlice) ⟨false, 0⟩ (Ends (0 + turns)) := ends_loop turns 0
  refine ⟨p, hsteps, fun call hcall => ?_, ?_⟩
  · obtain ⟨γ, hpermits⟩ := hloop.permits_of_mem hsteps hA hcall
    exact hpermits.2
  · have hfollows := hloop.steps hsteps hA
    rw [after_connecting] at hfollows
    simpa using hfollows

/-- **Nothing else closes the port.** -/
theorem portOpen_of_not_closes (hi : threads[i]? = some (.accepting turns))
    (hrun : ControllerRun F config profile fromSlice (fun _ s e => s.shared.Sound ∧
      (e.tid = i → logFails e.call = false ∧ closes profile fromSlice s.shared e.call = false))
      threads c t s) :
    PortOpen config profile fromSlice turns (history i t) := by
  obtain ⟨p, hsteps, hunwind, hp⟩ := accepting_follows (fun s e hg => ⟨hg.1, fun htid => by
    obtain ⟨hlog, hcloses⟩ := hg.2 htid
    refine ⟨hlog, fun src hsrc => ?_⟩
    rw [hsrc] at hcloses
    exact hcloses⟩) hi hrun
  have hopen : ∀ call ∈ history i t, connectionFails call = false ∧ call.ans ≠ none := by
    intro call hcall
    obtain ⟨e, he, htid, rfl⟩ := mem_history.mp hcall
    refine hrun.forall_mem (P := fun e => e.tid = i → (∀ guards, e.call.op ≠ .unwind guards) →
      connectionFails e.call = false ∧ e.call.ans ≠ none)
      (fun _ s e s' hg hstep htid hunwind => ?_) e he htid (hunwind _ hcall)
    obtain ⟨hsound, hsmooth⟩ := hg.2
    have hcloses := (hsmooth htid).2
    refine ⟨(Bool.or_eq_false_iff.mp hcloses).1, fun hnone => ?_⟩
    obtain ⟨w, hans, -⟩ := hstep.exec
    rcases panics_of_sound hsound (hans.symm.trans hnone) with ⟨guards, ha⟩ |
      ⟨driverId, value, ha, hge⟩
    · exact hunwind guards ha
    · -- the write that does not exist is one of the things that close the port
      obtain ⟨tid, a, ans⟩ := e
      obtain rfl : a = .op (.write driverId value) := ha
      simp [closes, connectionFails, hge] at hcloses
  rcases hp with ⟨-, call, hcall, hnone⟩ | hp
  · exact absurd hnone (hopen call hcall).2
  · refine ⟨p, hsteps, ?_⟩
    have hany : (history i t).any connectionFails = false := by
      rw [List.any_eq_false]
      exact fun call hcall => by simp [(hopen call hcall).1]
    rw [hany] at hp
    match p with
    | .op a k => trivial
    | .panic => exact hp
    | .ret (.error e) =>
      have herror : false = true := hp
      cases herror
    | .ret (.ok a) =>
      have hok : (⟨false, ((history i t).map accepts).sum⟩ : Progress) = ⟨false, turns⟩ := hp
      exact ⟨⟨a, rfl⟩, congrArg Progress.accepted hok⟩

/-- **A connection that fails closes the port**, and nothing opens it again. -/
theorem not_portOpen_of_connectionFails (hi : threads[i]? = some (.accepting turns))
    (hrun : ControllerRun F config profile fromSlice (fun _ s e => s.shared.Sound ∧
      (e.tid = i → logFails e.call = false ∧ ∀ src, e.call = ⟨.accept, some (.ok src)⟩ →
        overflows profile fromSlice (src.length + 1) src = false)) threads c t s)
    {call : Call Act.Ans} (hcall : call ∈ history i t) (hfails : connectionFails call = true) :
    ¬ PortOpen config profile fromSlice turns (history i t) := by
  obtain ⟨p, hsteps, -, hp⟩ := accepting_follows (fun _ _ hg => hg) hi hrun
  rintro ⟨p', hsteps', hopen⟩
  obtain rfl := hsteps.unique hsteps'
  rcases hp with ⟨rfl, -⟩ | hp
  · exact hopen
  have hany : (history i t).any connectionFails = true :=
    List.any_eq_true.mpr ⟨call, hcall, hfails⟩
  rw [hany] at hp
  match p' with
  | .op a k =>
    have hfailed : true = false := hp.1.1
    cases hfailed
  | .panic => exact hopen
  | .ret r =>
    obtain ⟨⟨a, rfl⟩, -⟩ := hopen
    have hok : (⟨true, _⟩ : Progress) = ⟨false, turns⟩ := hp
    cases congrArg Progress.failed hok

/-- **The port stays open unless a connection fails**, or a client makes the accept thread panic: in
every run in which that does not happen, no lock is poisoned and no log writer fails the accept
thread.  And once a connection has failed, the port is closed. -/
theorem port_open_unless_connection_fails (F : Type) [F64 F] (config : Configuration)
    (profile : Profile) (fromSlice : List UInt8 → Option Command) (threads : List Thread)
    (c : Controller) (i turns : Nat) (hi : threads[i]? = some (.accepting turns)) :
    (∀ t s, ControllerRun F config profile fromSlice (fun _ s e => s.shared.Sound ∧
        (e.tid = i → logFails e.call = false ∧ closes profile fromSlice s.shared e.call = false))
        threads c t s →
      PortOpen config profile fromSlice turns (history i t)) ∧
    ∀ t s, ControllerRun F config profile fromSlice (fun _ s e => s.shared.Sound ∧
        (e.tid = i → logFails e.call = false ∧ ∀ src, e.call = ⟨.accept, some (.ok src)⟩ →
          overflows profile fromSlice (src.length + 1) src = false)) threads c t s →
      ∀ call ∈ history i t, connectionFails call = true →
        ¬ PortOpen config profile fromSlice turns (history i t) :=
  ⟨fun _ _ hrun => portOpen_of_not_closes hi hrun, fun _ _ hrun _ hcall hfails =>
    not_portOpen_of_connectionFails hi hrun hcall hfails⟩

end Runs

/-- The condition on the steps of one accept thread, as a check. -/
def keepsOpen (profile : Profile) (fromSlice : List UInt8 → Option Command)
    (t : List (Event Act.Ans)) (s : Sys Act Act.Ans Controller) (e : Event Act.Ans) : Bool :=
  Locks.grants t s e && s.shared.sound && !logFails e.call &&
    !closes profile fromSlice s.shared e.call

/-- The port survives a listener that yields an error, and a client that connects and leaves: the
loop awaits the third one. -/
theorem port_open_after_client : ∃ t s,
    ControllerRun ℚ (.oneDriver [] []) .release (fun _ => none) (fun _ s e => s.shared.Sound ∧
      (e.tid = 0 → logFails e.call = false ∧ closes .release (fun _ => none) s.shared e.call = false))
      [.accepting 3] (.new [false]) t s ∧
    ((history 0 t).map accepts).sum = 2 ∧ s.threads[0]?.bind Prog.pending = some .accept ∧
    PortOpen (.oneDriver [] []) .release (fun _ => none) 3 (history 0 t) := by
  obtain ⟨t, s, hrun, hp⟩ := exists_guardedRun (M := controller (.oneDriver [] []))
    (G := fun t s e => Locks.Grants t s e ∧ s.shared.Sound ∧ (e.tid = 0 → logFails e.call = false ∧
      closes .release (fun _ => none) s.shared e.call = false))
    (C := keepsOpen .release (fun _ => none))
    (fun t s e h => by
      simp only [keepsOpen, Bool.and_eq_true, Bool.not_eq_true'] at h
      exact ⟨Locking.grants_of_grants h.1.1.1, Controller.sound_of_sound h.1.1.2, fun _ => ⟨h.1.2, h.2⟩⟩)
    ((0, { World.fine with incoming := .error .connectionReset }) ::
      List.replicate 26 (0, World.fine))
    (s := controllerOf ℚ (.oneDriver [] []) .release (fun _ => none) [.accepting 3] (.new [false]))
    (P := fun t s => decide (((history 0 t).map accepts).sum = 2) &&
      decide (s.threads[0]?.bind Prog.pending = some Act.accept))
    (by decide +kernel)
  simp only [Bool.and_eq_true, decide_eq_true_eq] at hp
  exact ⟨t, s, hrun, hp.1, hp.2,
    (port_open_unless_connection_fails ℚ (.oneDriver [] []) .release (fun _ => none) [.accepting 3]
      (.new [false]) 0 3 rfl).1 t s hrun⟩

/-- A client accepted, if one is, has sent nothing. -/
def silentClient : Call Act.Ans → Bool
  | ⟨.accept, some (.ok src)⟩ => src.isEmpty
  | _ => true

/-- **A client that has gone closes the port**: no lock is poisoned and no log writer fails, and the
accept loop has returned an error. -/
theorem gone_client_closes_port : ∃ t s,
    ControllerRun ℚ (.oneDriver [] []) .release (fun _ => none)
      (fun _ s e => s.shared.Sound ∧ logFails e.call = false) [.accepting 2] (.new [false]) t s ∧
    s.shared.Sound ∧
    ¬ PortOpen (.oneDriver [] []) .release (fun _ => none) 2 (history 0 t) := by
  obtain ⟨t, s, hrun, hp⟩ := exists_guardedRun (M := controller (.oneDriver [] []))
    (G := fun t s e => Locks.Grants t s e ∧ (s.shared.Sound ∧ logFails e.call = false) ∧
      ∀ src, e.call = ⟨.accept, some (.ok src)⟩ → src = [])
    (C := fun t s e => Locks.grants t s e && s.shared.sound && !logFails e.call &&
      silentClient e.call)
    (fun t s e h => by
      simp only [Bool.and_eq_true, Bool.not_eq_true'] at h
      refine ⟨Locking.grants_of_grants h.1.1.1, ⟨Controller.sound_of_sound h.1.1.2, h.1.2⟩,
        fun src hsrc => ?_⟩
      rw [hsrc] at h
      exact List.isEmpty_iff.mp h.2)
    [(0, World.fine), (0, { World.fine with peerAddr := .error (.other "not connected") })]
    (s := controllerOf ℚ (.oneDriver [] []) .release (fun _ => none) [.accepting 2] (.new [false]))
    (P := fun t s => s.shared.sound && (history 0 t).any connectionFails)
    (by decide +kernel)
  simp only [Bool.and_eq_true, List.any_eq_true] at hp
  obtain ⟨hsound, call, hcall, hfails⟩ := hp
  refine ⟨t, s, hrun.mono fun _ _ _ hg => ⟨hg.1, hg.2.1⟩, Controller.sound_of_sound hsound, ?_⟩
  refine not_portOpen_of_connectionFails (i := 0) rfl (hrun.mono fun _ _ _ hg =>
    ⟨hg.1, hg.2.1.1, fun _ => ⟨hg.2.1.2, fun src hsrc => ?_⟩⟩) hcall hfails
  rw [hg.2.2 src hsrc]
  rfl

end Slonk
