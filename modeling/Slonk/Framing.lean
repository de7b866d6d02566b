/-
# Message framing

`Command::parse` finds the end of a message by counting braces.  This file sets it against the
grammar of JSON: on a stream of objects, each with whitespace before it, every call takes exactly
the next object and its whitespace, and leaves the rest of the stream alone.

The loop is a `Json.BraceScanner` while `depth` fits an `i32`, so the induction along the grammar
is the library's; what is left is the outermost object, whose closing brace ends the call.
-/
import Mathlib.Data.List.DropRight
import Slonk.Incoming
import Slonk.Json.Scanning

namespace Slonk

open Json (Whitespace Object BraceScanner)

variable {profile : Profile} {fromSlice : List UInt8 → Option Command}

/-! ## 1. The loop as a scanner -/

/-- The loop outside strings, `d` levels deep. -/
def Scanner.outside (read : List UInt8) (d : Nat) : Scanner := ⟨read, d, false, false⟩

/-- The loop inside a string. -/
def Scanner.inQuotes (read : List UInt8) (d : Nat) : Scanner := ⟨read, d, true, false⟩

/-- The loop inside a string, after a backslash that escapes. -/
def Scanner.afterBackslash (read : List UInt8) (d : Nat) : Scanner := ⟨read, d, true, true⟩

/-- One turn, if another follows. -/
def Scanner.step (profile : Profile) (s : Scanner) (c : UInt8) : Option Scanner :=
  match s.turn profile c with
  | .more s' => some s'
  | _ => none

theorem Scanner.step_eq_some {s s' : Scanner} {c : UInt8} :
    s.step profile c = some s' ↔ s.turn profile c = .more s' := by
  unfold Scanner.step
  cases s.turn profile c with
  | more m => exact ⟨fun h => congrArg Turn.more (Option.some.inj h),
      fun h => congrArg some (Turn.more.inj h)⟩
  | _ => exact ⟨nofun, nofun⟩

/-- An ordinary byte. -/
theorem Scanner.turn_ordinary (s : Scanner) {c : UInt8} (h : Json.Quiet c) :
    s.turn profile c = .more ⟨s.buffer ++ [c], s.depth, s.inString, false⟩ := by
  have hback : (c == 0x5C) = false := beq_eq_false_iff_ne.mpr h.backslash
  simp only [Scanner.turn, if_neg h.openBrace, if_neg h.closeBrace, if_neg h.quote, hback,
    Bool.false_and]

/-- An opening brace outside strings, as long as `depth` fits. -/
theorem Scanner.turn_open {d : Nat} (h : d < 2147483647) (read : List UInt8) :
    (Scanner.outside read d).turn profile 0x7B
      = .more (Scanner.outside (read ++ [0x7B]) (d + 1)) := by
  have hadd : addI32 profile d 1 = some (d + 1) := addI32_eq (by omega) (by omega)
  simp only [Scanner.turn, Scanner.outside, if_true, Bool.false_eq_true, if_false, hadd,
    Nat.cast_add, Nat.cast_one]
  rfl

/-- A closing brace takes one from `depth`. -/
theorem addI32_close {d : Nat} (h : d < 2147483647) :
    addI32 profile ((d + 1 : Nat) : Int) (-1) = some (d : Int) := by
  rw [addI32_eq (by omega) (by omega)]
  congr 1
  omega

/-- A closing brace outside strings, when it is not the last. -/
theorem Scanner.turn_close {d : Nat} (hd : 0 < d) (h : d < 2147483647) (read : List UInt8) :
    (Scanner.outside read (d + 1)).turn profile 0x7D
      = .more (Scanner.outside (read ++ [0x7D]) d) := by
  have hne : ((d + 1 : Nat) : Int) ≠ 0 := by omega
  have hne' : (d : Int) ≠ 0 := by omega
  have hbrace : (0x7D : UInt8) ≠ 0x7B := by decide
  simp only [Scanner.turn, Scanner.outside, if_true, Bool.false_eq_true, if_false,
    addI32_close h, if_neg hbrace, if_neg hne, if_neg hne']
  rfl

/-- A closing brace outside strings, when it is the last. -/
theorem Scanner.turn_last (read : List UInt8) :
    (Scanner.outside read 1).turn profile 0x7D = .complete (read ++ [0x7D]) := by
  have hbrace : (0x7D : UInt8) ≠ 0x7B := by decide
  have hadd : addI32 profile 1 (-1) = some 0 := addI32_eq (by omega) (by omega)
  simp only [Scanner.turn, Scanner.outside, if_true, Bool.false_eq_true, if_false,
    if_neg hbrace, Nat.cast_one, hadd, one_ne_zero]

/-- A byte inside a string that is neither a quotation mark nor a backslash. -/
theorem Scanner.turn_inQuotes {c : UInt8} (h : c ≠ 0x22) (h' : c ≠ 0x5C) (read : List UInt8)
    (d : Nat) :
    (Scanner.inQuotes read d).turn profile c = .more (Scanner.inQuotes (read ++ [c]) d) := by
  have hback : (c == 0x5C) = false := beq_eq_false_iff_ne.mpr h'
  simp only [Scanner.turn, Scanner.inQuotes, if_true, if_neg h, hback, Bool.false_and, ite_self]

/-- Any byte after an escaping backslash. -/
theorem Scanner.turn_afterBackslash (c : UInt8) (read : List UInt8) (d : Nat) :
    (Scanner.afterBackslash read d).turn profile c
      = .more (Scanner.inQuotes (read ++ [c]) d) := by
  simp only [Scanner.turn, Scanner.afterBackslash, Scanner.inQuotes, if_true, Bool.not_true,
    Bool.and_false, Bool.xor_false, ite_self]

/-- **The loop of `Command::parse` counts braces**, up to the last value of an `i32`. -/
def braceScanner (profile : Profile) : BraceScanner Scanner 2147483647 where
  step := Scanner.step profile
  outside := Scanner.outside
  inString := Scanner.inQuotes
  escaped := Scanner.afterBackslash
  step_quiet read d _ h := Scanner.step_eq_some.mpr (Scanner.turn_ordinary (.outside read d) h)
  step_open read _ h := Scanner.step_eq_some.mpr (Scanner.turn_open h read)
  step_close read _ hd h := Scanner.step_eq_some.mpr (Scanner.turn_close hd h read)
  step_quote _ _ := rfl
  step_endQuote _ _ := rfl
  step_backslash _ _ := rfl
  step_char read d _ h h' := Scanner.step_eq_some.mpr (Scanner.turn_inQuotes h h' read d)
  step_escaped read d b := Scanner.step_eq_some.mpr (Scanner.turn_afterBackslash b read d)

/-- Bytes that do not end the call are read one after the other. -/
theorem parseFrom_of_run {bytes : List UInt8} {s s' : Scanner}
    (h : (braceScanner profile).run s bytes = some s') (src : Source) :
    Command.parseFrom profile fromSlice s (Source.ofBytes bytes ++ src)
      = Command.parseFrom profile fromSlice s' src := by
  induction bytes generalizing s with
  | nil =>
    obtain rfl := Option.some.inj h
    rfl
  | cons c bytes ih =>
    rw [BraceScanner.run_cons] at h
    obtain ⟨m, hm, hrest⟩ := Option.bind_eq_some_iff.mp h
    have hturn : s.turn profile c = .more m := Scanner.step_eq_some.mp hm
    rw [Source.ofBytes_cons, List.cons_append, Command.parseFrom]
    simp only [hturn]
    exact ih hrest

/-! ## 2. One message -/

/-- An object of the stream, and the whitespace before it. -/
structure Frame where
  before : Whitespace
  object : Object

/-- What the stream contains of it. -/
def Frame.bytes (f : Frame) : List UInt8 := f.before.bytes ++ f.object.bytes

/-- The answer of the deserialiser, as `Command::parse` returns it. -/
def outcome (fromSlice : List UInt8 → Option Command) (message : List UInt8) :
    Except IncomingError Command :=
  match fromSlice message with
  | some cmd => .ok cmd
  | none => .error (.malformed message)

/-- The braces of an object fit. -/
def Frame.Fits (f : Frame) : Prop := f.object.depth < 2 ^ 31

/-- Whitespace alone does not end a message. -/
theorem run_whitespace (w : Whitespace) :
    (braceScanner profile).run Scanner.new w.bytes = some (Scanner.outside w.bytes 0) :=
  BraceScanner.skips_whitespace (C := braceScanner profile) (d := 0) w []

/-- **One call takes one frame.** -/
theorem parse_frame {f : Frame} (hf : f.Fits) (src : Source) :
    Command.parse profile fromSlice (Source.ofBytes f.bytes ++ src)
      = (some (outcome fromSlice f.bytes), src) := by
  obtain ⟨before, o⟩ := f
  have hdepth : 1 + o.innerDepth ≤ 2147483647 := by
    have h : o.innerDepth + 1 < 2147483648 := hf
    omega
  -- everything but the last brace
  have hrun : (braceScanner profile).run Scanner.new (before.bytes ++ (0x7B :: o.inner))
      = some (Scanner.outside (before.bytes ++ (0x7B :: o.inner)) 1) := by
    rw [BraceScanner.run_append, run_whitespace, Option.bind_some, BraceScanner.run_cons]
    have hopen : (braceScanner profile).step (Scanner.outside before.bytes 0) 0x7B
        = some (Scanner.outside (before.bytes ++ [0x7B]) 1) :=
      (braceScanner profile).step_open before.bytes 0 (by omega)
    have hinner := BraceScanner.object (C := braceScanner profile) Nat.one_pos o hdepth
      (before.bytes ++ [0x7B])
    rw [hopen, Option.bind_some]
    rw [List.append_assoc] at hinner
    exact hinner
  have hsplit : (⟨before, o⟩ : Frame).bytes = before.bytes ++ (0x7B :: o.inner) ++ [0x7D] := by
    simp only [Frame.bytes, Object.bytes, List.append_assoc, List.cons_append]
  rw [hsplit, Source.ofBytes_append, List.append_assoc, Command.parse, parseFrom_of_run hrun,
    ← hsplit]
  show Command.parseFrom profile fromSlice _ (.ok 0x7D :: src) = _
  rw [Command.parseFrom, Scanner.turn_last, ← hsplit, outcome]
  simp only
  cases fromSlice (⟨before, o⟩ : Frame).bytes with
  | some cmd => rfl
  | none => rfl

/-! ## 3. A stream of messages -/

/-- The bytes of these frames, one after the other. -/
def framed (frames : List Frame) : List UInt8 := frames.flatMap Frame.bytes

theorem framed_cons (f : Frame) (frames : List Frame) :
    framed (f :: frames) = f.bytes ++ framed frames := List.flatMap_cons

/-- The stream after a call. -/
def afterParse (profile : Profile) (fromSlice : List UInt8 → Option Command) (src : Source) :
    Source := (Command.parse profile fromSlice src).2

/-- As many calls as there are frames take these frames. -/
theorem iterate_afterParse {frames : List Frame} (hf : ∀ f ∈ frames, f.Fits) (src : Source) :
    (afterParse profile fromSlice)^[frames.length] (Source.ofBytes (framed frames) ++ src)
      = src := by
  induction frames with
  | nil => rfl
  | cons f frames ih =>
    rw [List.length_cons, Function.iterate_succ_apply, framed_cons, Source.ofBytes_append,
      List.append_assoc, afterParse, parse_frame (hf f List.mem_cons_self)]
    exact ih fun g hg => hf g (List.mem_cons_of_mem _ hg)

/-- The deserialiser does not look at the whitespace around a message. -/
def IgnoresWhitespace (fromSlice : List UInt8 → Option Command) : Prop :=
  ∀ (before after : Whitespace) (bytes : List UInt8),
    fromSlice (before.bytes ++ bytes ++ after.bytes) = fromSlice bytes

/-! ## 4. Sample messages

A deserialiser that knows three messages, to compute with. -/

/-- The characters of a text, except those that need an escape. -/
def text (s : String) : Json.Chars :=
  s.toList.filterMap fun c =>
    if h : 0x20 ≤ c.toNat ∧ c.toNat ≠ 0x22 ∧ c.toNat ≠ 0x5C then
      some (.unescaped c h.1 h.2.1 h.2.2)
    else none

/-- Members without whitespace. -/
def members : String × Json.Value → List (String × Json.Value) → Json.Members
  | (name, value), [] => .last [] (text name) [] [] value []
  | (name, value), m :: ms => .more [] (text name) [] [] value [] (members m ms)

def ignitionMessage : Object := .members (members ("type", .string (text "Ignition")) [])

def emergencyStopMessage : Object :=
  .members (members ("type", .string (text "EmergencyStop")) [])

def actuateMessage : Object :=
  .members (members ("type", .string (text "Actuate"))
    [("driver_id", .number ⟨false, .zero, none, none⟩), ("value", .literal .true)])

/-- Bytes that are whitespace to JSON. -/
def isBlank (b : UInt8) : Bool := b == 0x20 || b == 0x09 || b == 0x0A || b == 0x0D

/-- A message without the whitespace around it. -/
def trim (bytes : List UInt8) : List UInt8 := (bytes.dropWhile isBlank).rdropWhile isBlank

/-- The deserialiser. -/
def sampleFromSlice (message : List UInt8) : Option Command :=
  [(ignitionMessage.bytes, Command.ignition), (emergencyStopMessage.bytes, .emergencyStop),
    (actuateMessage.bytes, .actuate 0 true)].lookup (trim message)

theorem isBlank_of_mem {w : Whitespace} : ∀ b ∈ w.bytes, isBlank b = true := by
  intro b hb
  obtain ⟨c, -, rfl⟩ := List.mem_map.mp hb
  cases c <;> rfl

theorem trim_around (before after : Whitespace) (bytes : List UInt8) :
    trim (before.bytes ++ bytes ++ after.bytes) = trim bytes := by
  have hright : ∀ l : List UInt8, (l ++ after.bytes).rdropWhile isBlank = l.rdropWhile isBlank := by
    intro l
    rw [List.rdropWhile, List.reverse_append, List.dropWhile_append_of_pos, List.rdropWhile]
    exact fun b hb => isBlank_of_mem b (List.mem_reverse.mp hb)
  unfold trim
  rw [List.append_assoc, List.dropWhile_append_of_pos isBlank_of_mem, List.dropWhile_append]
  split
  · rename_i hempty
    rw [List.isEmpty_iff.mp hempty, List.dropWhile_eq_nil_iff.mpr isBlank_of_mem]
  · exact hright _

theorem sampleFromSlice_ignoresWhitespace : IgnoresWhitespace sampleFromSlice :=
  fun before after bytes => by rw [sampleFromSlice, trim_around, sampleFromSlice]

/-! ## 5. The framing theorem -/

/-- An object that is no command, with a brace, an escaped quotation mark and an escaped backslash
in its strings and an object in an array. -/
def strangeMessage : Object :=
  .members (members ("\x7d", .array (.last [.space]
    (.object (.members (.last [] [.escape .quotationMark, .escape .reverseSolidus] [.tab] []
      (.string (text "\x7b")) []))) [])) [])

/-- **Message framing agrees with the JSON grammar.**  On the bytes of any frames, followed by
anything, the call after the frames `done` finds the stream at the next frame, consumes exactly
that, and returns its command if the deserialiser accepts the object, and `Malformed` with the
bytes consumed otherwise. -/
theorem framing_agrees (profile : Profile) (fromSlice : List UInt8 → Option Command)
    (hws : IgnoresWhitespace fromSlice) (frames : List Frame)
    (hdepth : ∀ f ∈ frames, f.object.depth < 2 ^ 31) (rest : Source)
    (done : List Frame) (f : Frame) (todo : List Frame) (hsplit : frames = done ++ f :: todo) :
    (afterParse profile fromSlice)^[done.length] (Source.ofBytes (framed frames) ++ rest)
        = Source.ofBytes f.bytes ++ (Source.ofBytes (framed todo) ++ rest) ∧
      Command.parse profile fromSlice
          (Source.ofBytes f.bytes ++ (Source.ofBytes (framed todo) ++ rest))
        = (some (match fromSlice f.object.bytes with
            | some cmd => .ok cmd
            | none => .error (.malformed f.bytes)),
          Source.ofBytes (framed todo) ++ rest) := by
  subst hsplit
  constructor
  · have hframed : framed (done ++ f :: todo) = framed done ++ (f.bytes ++ framed todo) := by
      rw [framed, List.flatMap_append, List.flatMap_cons]
      rfl
    rw [hframed, Source.ofBytes_append, Source.ofBytes_append, List.append_assoc,
      List.append_assoc,
      iterate_afterParse fun g hg => hdepth g (List.mem_append_left _ hg)]
  · have hobject : fromSlice f.bytes = fromSlice f.object.bytes := by
      have := hws f.before [] f.object.bytes
      rwa [show Whitespace.bytes [] = [] from rfl, List.append_nil] at this
    rw [parse_frame (hdepth f (by simp)), outcome, hobject]

/-- After the strange message, a call finds the `Ignition` behind the whitespace, and stops at the
next byte. -/
theorem framing_agrees_strange :
    Command.parse .debug sampleFromSlice
        (Source.ofBytes (Frame.bytes ⟨[.lineFeed], ignitionMessage⟩) ++
          (Source.ofBytes (framed []) ++ [.ok 0x7D]))
      = (some (.ok .ignition), [.ok 0x7D]) :=
  (framing_agrees .debug sampleFromSlice sampleFromSlice_ignoresWhitespace
    [⟨[], strangeMessage⟩, ⟨[.lineFeed], ignitionMessage⟩] (by decide) [.ok 0x7D]
    [⟨[], strangeMessage⟩] ⟨[.lineFeed], ignitionMessage⟩ [] rfl).2.trans (by decide +kernel)

end Slonk
