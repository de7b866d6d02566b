/-
# Incoming messages

`incoming.rs`: the commands of the dashboard and `Command::parse`, which cuts the next message
out of a byte stream and deserialises it.

A message has no length and no terminator.  `Command::parse` reads byte by byte, counts the
braces that are not inside a string, and stops when the count returns to zero; three variables
carry it (`depth`, `in_string`, `escaped`), here the `Scanner`.  The deserialiser is
`serde_json::from_slice`, a parameter: it is given the bytes read and answers a command or
nothing.

The stream is a list of read events, a byte or an I/O error, and it ends where the peer closed
the connection.  `std` retries a read that failed as `Interrupted`, so such an event is
skipped.  `depth` is an `i32`: past its last value a debug build panics and a release build
wraps around, which is what `Profile` says.
-/
import Mathlib.Tactic

namespace Slonk

/-- `Command`. -/
inductive Command
  | actuate (driverId : UInt8) (value : Bool)
  | ignition
  | emergencyStop
  deriving DecidableEq, Repr

/-- `impl Display for Command`. -/
def Command.display : Command → String
  | .actuate driverId value => s!"actuate {driverId} {value}"
  | .ignition => "ignition"
  | .emergencyStop => "estop"

/-! ## 1. The stream -/

/-- `std::io::ErrorKind`, as far as the controller distinguishes it. -/
inductive ErrorKind
  | unexpectedEof
  | connectionReset
  | interrupted
  | other (description : String)
  deriving DecidableEq, Repr

/-- What successive reads of one byte yield, up to the end of the stream. -/
abbrev Source := List (Except ErrorKind UInt8)

/-- A stream that delivers these bytes and is then closed. -/
def Source.ofBytes (bytes : List UInt8) : Source := bytes.map .ok

@[simp] theorem Source.ofBytes_nil : Source.ofBytes [] = [] := rfl

@[simp] theorem Source.ofBytes_cons (c : UInt8) (bytes : List UInt8) :
    Source.ofBytes (c :: bytes) = .ok c :: Source.ofBytes bytes := rfl

@[simp] theorem Source.ofBytes_append (bytes bytes' : List UInt8) :
    Source.ofBytes (bytes ++ bytes') = Source.ofBytes bytes ++ Source.ofBytes bytes' :=
  List.map_append

/-- `incoming::Error`. -/
inductive IncomingError
  | malformed (message : List UInt8)
  | io (kind : ErrorKind)
  deriving DecidableEq, Repr

/-! ## 2. Thirty-two bit arithmetic -/

/-- The two ways the controller is built. -/
inductive Profile
  | debug
  | release
  deriving DecidableEq, Repr

/-- `a + b` at type `i32`; `none` is the overflow panic of a debug build. -/
def addI32 (profile : Profile) (a b : Int) : Option Int :=
  if -2147483648 ≤ a + b ∧ a + b ≤ 2147483647 then some (a + b)
  else match profile with
    | .debug => none
    | .release => some (Int.bmod (a + b) 4294967296)

theorem addI32_eq {profile : Profile} {a b : Int} (h₁ : -2147483648 ≤ a + b)
    (h₂ : a + b ≤ 2147483647) : addI32 profile a b = some (a + b) := if_pos ⟨h₁, h₂⟩

/-! ## 3. The scanner -/

/-- The variables of the loop in `Command::parse`. -/
structure Scanner where
  buffer : List UInt8
  depth : Int
  inString : Bool
  escaped : Bool
  deriving DecidableEq, Repr

/-- Their values before the first byte. -/
def Scanner.new : Scanner := ⟨[], 0, false, false⟩

/-- What one turn of the loop leads to: another turn, the end of the outermost object, an error
return, or the overflow of `depth`. -/
inductive Turn
  | more (scanner : Scanner)
  | complete (buffer : List UInt8)
  | malformed (buffer : List UInt8)
  | overflow
  deriving DecidableEq, Repr

/-- One turn of the loop, on the byte `c`: 0x7B and 0x7D are the braces, 0x22 is the quote and
0x5C the backslash. -/
def Scanner.turn (profile : Profile) (s : Scanner) (c : UInt8) : Turn :=
  let buffer := s.buffer ++ [c]
  let escaped := c == 0x5C && !s.escaped
  if c = 0x7B then
    if s.inString then .more ⟨buffer, s.depth, s.inString, escaped⟩
    else match addI32 profile s.depth 1 with
      | some depth => .more ⟨buffer, depth, s.inString, escaped⟩
      | none => .overflow
  else if c = 0x7D then
    if s.inString then .more ⟨buffer, s.depth, s.inString, escaped⟩
    else if s.depth = 0 then .malformed buffer
    else match addI32 profile s.depth (-1) with
      | some depth =>
        if depth = 0 then .complete buffer else .more ⟨buffer, depth, s.inString, escaped⟩
      | none => .overflow
  else if c = 0x22 then .more ⟨buffer, s.depth, s.inString ^^ !s.escaped, escaped⟩
  else .more ⟨buffer, s.depth, s.inString, escaped⟩

/-- The loop of `Command::parse` and what follows it.  The result is `none` when it panics. -/
def Command.parseFrom (profile : Profile) (fromSlice : List UInt8 → Option Command) :
    Scanner → Source → Option (Except IncomingError Command) × Source
  | _, [] => (some (.error (.io .unexpectedEof)), [])
  | s, .error .interrupted :: src => Command.parseFrom profile fromSlice s src
  | _, .error kind :: src => (some (.error (.io kind)), src)
  | s, .ok c :: src =>
    match s.turn profile c with
    | .more s' => Command.parseFrom profile fromSlice s' src
    | .complete buffer =>
      match fromSlice buffer with
      | some cmd => (some (.ok cmd), src)
      | none => (some (.error (.malformed buffer)), src)
    | .malformed buffer => (some (.error (.malformed buffer)), src)
    | .overflow => (none, src)

/-- `Command::parse`: the result, and the rest of the stream. -/
def Command.parse (profile : Profile) (fromSlice : List UInt8 → Option Command)
    (src : Source) : Option (Except IncomingError Command) × Source :=
  Command.parseFrom profile fromSlice Scanner.new src

variable {profile : Profile} {fromSlice : List UInt8 → Option Command}

/-- **Every call consumes something**, except at the end of the stream, which it reports. -/
theorem Command.parseFrom_length (s : Scanner) (src : Source) :
    (Command.parseFrom profile fromSlice s src).2.length < src.length ∨
      Command.parseFrom profile fromSlice s src = (some (.error (.io .unexpectedEof)), []) := by
  fun_induction Command.parseFrom profile fromSlice s src with
  | case1 s => exact Or.inr rfl
  | case2 s src ih =>
    rcases ih with h | h
    · exact Or.inl (Nat.lt_succ_of_lt h)
    · exact Or.inr h
  | case4 s c src s' hs ih =>
    rcases ih with h | h
    · exact Or.inl (Nat.lt_succ_of_lt h)
    · exact Or.inr h
  | case3 => exact Or.inl (Nat.lt_succ_self _)
  | case5 => exact Or.inl (Nat.lt_succ_self _)
  | case6 => exact Or.inl (Nat.lt_succ_self _)
  | case7 => exact Or.inl (Nat.lt_succ_self _)
  | case8 => exact Or.inl (Nat.lt_succ_self _)

end Slonk
