/-
# A client of the dashboard

`handle_client` of `server.rs`: send the configuration, then read messages until the dashboard
disconnects.  `Actuate` is executed inline; `Ignition` and `EmergencyStop` are handed to a thread
of their own, and the loop reads on.

Reading is not an operation of the shared state, so the stream is an argument of the program and
what a message decodes to is known beforehand (`decode`).  The loop has a bound on its turns;
every message consumes a part of the stream, so the length of the stream and one more is a bound
that is never reached (`handleClientLoop_fuel`).
-/
import Slonk.Commands

namespace Slonk

open Concurrency

/-- `ControllerError`, as far as `handle_client` returns it. -/
inductive ControllerError
  | console
  | outgoing (e : OutgoingError)
  deriving DecidableEq, Repr

/-! ## 1. The program -/

/-- `user_log.info(message)?` and its siblings. -/
def logUser (level : LogLevel) (message : UserMessage) : Proc ControllerError Unit :=
  ExceptT.mk <| .op (.userLog level message) fun
    | .ok () => .ret (.ok ())
    | .error () => .ret (.error .console)

/-- `to_dash.send(message)?` -/
def send (message : Message) : Proc ControllerError Unit :=
  ExceptT.mk <| .op (.send message) fun
    | .ok () => .ret (.ok ())
    | .error e => .ret (.error (.outgoing e))

/-- "spawn thread to handle command" -/
def spawn (cmd : Command) : Proc ControllerError Unit :=
  ExceptT.mk <| .op (.spawn cmd) fun _ => .ret (.ok ())

/-- `handle_command` of an `Actuate`, in the loop's own thread: an error is reported, and is no
reason to stop. -/
def actuateInline (config : Configuration) (driverId : UInt8) (value : Bool) :
    Proc ControllerError Unit := do
  match ← ExceptT.lift (handleCommand config (.actuate driverId value)).run with
  | .error e => logUser .critical (.commandError e)
  | .ok () => logUser .debug (.text "Finished executing command.")

/-- One turn of the loop, on what `Command::parse` returned: does it go on? -/
def handleMessage (config : Configuration) :
    Except IncomingError Command → Proc ControllerError Bool
  | .error (.malformed message) => do
    logUser .critical (.malformedCommand message)
    pure true
  | .error (.io .unexpectedEof) | .error (.io .connectionReset) => do
    -- "EOF means the dashboard closed the connection"
    logUser .info (.text "Dashboard disconnected.")
    pure false
  | .error (.io kind) => do
    logUser .warn (.parseIoError kind)
    pure true
  | .ok (.actuate driverId value) => do
    actuateInline config driverId value
    pure true
  | .ok cmd => do
    spawn cmd
    logUser .debug (.text "Finished executing command.")
    pure true

variable (config : Configuration) (profile : Profile) (fromSlice : List UInt8 → Option Command)

/-- The loop of `handle_client`.  An overflow in `Command::parse` is a panic. -/
def handleClientLoop : Nat → Source → Proc ControllerError Unit
  | 0, _ => ExceptT.mk .panic
  | fuel + 1, src =>
    match Command.parse profile fromSlice src with
    | (none, _) => ExceptT.mk .panic
    | (some result, src') => do
      if ← handleMessage config result then handleClientLoop fuel src' else pure ()

/-- `handle_client`. -/
def handleClient (src : Source) : Proc ControllerError Unit := do
  send (.config config)
  logUser .debug (.text "Successfully sent configuration to dashboard.")
  handleClientLoop config profile fromSlice (src.length + 1) src

/-- The commands a stream decodes to, up to the end of the stream or a panic. -/
def decodeWith : Nat → Source → List Command
  | 0, _ => []
  | fuel + 1, src =>
    match Command.parse profile fromSlice src with
    | (none, _) => []
    | (some (.error (.io .unexpectedEof)), _) => []
    | (some (.error (.io .connectionReset)), _) => []
    | (some (.error _), src') => decodeWith fuel src'
    | (some (.ok cmd), src') => cmd :: decodeWith fuel src'

/-- The commands a stream decodes to. -/
def decode (src : Source) : List Command := decodeWith profile fromSlice (src.length + 1) src

/-- The commands that get a thread of their own, in order. -/
def spawned (cmds : List Command) : List Command :=
  cmds.filter fun
    | .actuate _ _ => false
    | _ => true

/-- One client and nothing else: its thread is number 0, and the `k`-th thread it spawns is
number `k + 1`. -/
def client (src : Source) (shared : Shared) : System :=
  ⟨shared, [(handleClient config profile fromSlice src).run.discard]⟩

variable {config profile fromSlice}

/-! ## 2. The bound is never reached -/

/-- A message after which the loop goes on has consumed a part of the stream. -/
theorem parse_length {src src' : Source} {result : Option (Except IncomingError Command)}
    (h : Command.parse profile fromSlice src = (result, src'))
    (hr : result ≠ some (.error (.io .unexpectedEof))) : src'.length < src.length := by
  have hlen : (Command.parse profile fromSlice src).2.length < src.length ∨
      Command.parse profile fromSlice src = (some (.error (.io .unexpectedEof)), []) :=
    Command.parseFrom_length Scanner.new src
  rw [h] at hlen
  rcases hlen with hlen | hlen
  · exact hlen
  · exact absurd (Prod.mk.inj hlen).1 hr

/-- The end of the connection ends the loop. -/
theorem handleMessage_disconnected {kind : ErrorKind}
    (h : kind = .unexpectedEof ∨ kind = .connectionReset) (p : Proc ControllerError Unit) :
    (handleMessage config (.error (.io kind)) >>= fun b => if b then p else pure ()) =
      (logUser .info (.text "Dashboard disconnected.") >>= fun _ => pure ()) := by
  rcases h with rfl | rfl
  · simp only [handleMessage, bind_assoc, pure_bind]
    rfl
  · simp only [handleMessage, bind_assoc, pure_bind]
    rfl

theorem handleMessage_eof (p : Proc ControllerError Unit) :
    (handleMessage config (.error (.io .unexpectedEof)) >>= fun b => if b then p else pure ()) =
      (logUser .info (.text "Dashboard disconnected.") >>= fun _ => pure ()) :=
  handleMessage_disconnected (Or.inl rfl) p

/-- **More turns than the stream has elements are all the same.** -/
theorem handleClientLoop_fuel : ∀ {fuel fuel' : Nat} {src : Source}, src.length < fuel →
    src.length < fuel' →
    handleClientLoop config profile fromSlice fuel src
      = handleClientLoop config profile fromSlice fuel' src
  | fuel + 1, fuel' + 1, src, h, h' => by
    unfold handleClientLoop
    match hp : Command.parse profile fromSlice src with
    | (none, _) => rfl
    | (some result, src') =>
      by_cases hr : result = .error (.io .unexpectedEof)
      · subst hr
        exact (handleMessage_eof _).trans (handleMessage_eof _).symm
      · have hlt := parse_length hp fun h => hr (Option.some.inj h)
        simp only
        rw [handleClientLoop_fuel (show src'.length < fuel by omega)
          (show src'.length < fuel' by omega)]

/-! ## 3. The loop and its commands -/

/-- **Induction on the loop** of `handle_client` beside the commands of its stream: it panics, the
connection ends, or there is a message, which is a command or is not, and the rest of the loop. -/
theorem handleClientLoop_induct {motive : Proc ControllerError Unit → List Command → Prop}
    (stuck : motive (ExceptT.mk .panic) [])
    (ended : motive (logUser .info (.text "Dashboard disconnected.") >>= fun _ => pure ()) [])
    (skipped : ∀ e p cmds, e ≠ .io .unexpectedEof → e ≠ .io .connectionReset → motive p cmds →
      motive (handleMessage config (.error e) >>= fun b => if b then p else pure ()) cmds)
    (command : ∀ cmd p cmds, motive p cmds →
      motive (handleMessage config (.ok cmd) >>= fun b => if b then p else pure ()) (cmd :: cmds)) :
    ∀ (fuel : Nat) (src : Source), motive (handleClientLoop config profile fromSlice fuel src)
      (decodeWith profile fromSlice fuel src)
  | 0, _ => stuck
  | fuel + 1, src => by
    have ih := handleClientLoop_induct stuck ended skipped command fuel
    have hend : ∀ {kind : ErrorKind} {p : Proc ControllerError Unit},
        kind = .unexpectedEof ∨ kind = .connectionReset →
        motive (handleMessage config (.error (.io kind)) >>= fun b => if b then p else pure ()) [] := by
      intro kind p hkind
      rw [handleMessage_disconnected hkind]
      exact ended
    unfold handleClientLoop decodeWith
    obtain ⟨_ | (e | cmd), src'⟩ := Command.parse profile fromSlice src
    case none => exact stuck
    case some.ok => exact command cmd _ _ (ih src')
    case some.error =>
      cases e with
      | malformed message => exact skipped _ _ _ nofun nofun (ih src')
      | io kind =>
        cases kind with
        | unexpectedEof => exact hend (Or.inl rfl)
        | connectionReset => exact hend (Or.inr rfl)
        | interrupted => exact skipped _ _ _ nofun nofun (ih src')
        | other description => exact skipped _ _ _ nofun nofun (ih src')

end Slonk
