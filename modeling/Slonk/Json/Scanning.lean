/-
# Scanners that count braces

A scanner that looks for the end of a JSON object needs to know three things: how many braces
are open, whether it is inside a string, and whether the last byte was a backslash that escapes
the next one.  `BraceScanner S limit` is any scanner with states `S` that tracks them while no
more than `limit` braces are open; it may keep what it has read.

Along the grammar: read outside a string, with at least one brace open, a value leaves the scanner
outside a string with as many braces open as before (`BraceScanner.value`); so a scanner that has
read the opening brace of an object is one closing brace away from its end when it has read what
is inside (`BraceScanner.object`).
-/
import Slonk.Json.Grammar

namespace Json

/-- A scanner that counts braces up to `limit`.  `outside read d` is its state outside strings
after the bytes `read`, with `d` braces open; `inString` and `escaped` are its states inside a
string.  `step` is `none` where it stops, which it may do when it closes the last brace. -/
structure BraceScanner (S : Type) (limit : Nat) where
  step : S → UInt8 → Option S
  outside : List UInt8 → Nat → S
  inString : List UInt8 → Nat → S
  escaped : List UInt8 → Nat → S
  step_quiet : ∀ read d b, Quiet b → step (outside read d) b = some (outside (read ++ [b]) d)
  step_open : ∀ read d, d < limit →
    step (outside read d) 0x7B = some (outside (read ++ [0x7B]) (d + 1))
  step_close : ∀ read d, 0 < d → d < limit →
    step (outside read (d + 1)) 0x7D = some (outside (read ++ [0x7D]) d)
  step_quote : ∀ read d, step (outside read d) 0x22 = some (inString (read ++ [0x22]) d)
  step_endQuote : ∀ read d, step (inString read d) 0x22 = some (outside (read ++ [0x22]) d)
  step_backslash : ∀ read d, step (inString read d) 0x5C = some (escaped (read ++ [0x5C]) d)
  step_char : ∀ read d b, b ≠ 0x22 → b ≠ 0x5C →
    step (inString read d) b = some (inString (read ++ [b]) d)
  step_escaped : ∀ read d b, step (escaped read d) b = some (inString (read ++ [b]) d)

namespace BraceScanner

variable {S : Type} {limit d : Nat} {C : BraceScanner S limit} {bytes bytes' : List UInt8}

/-- The state after some bytes, if it has not stopped before. -/
def run (C : BraceScanner S limit) (s : S) (bytes : List UInt8) : Option S :=
  bytes.foldlM C.step s

@[simp] theorem run_nil (s : S) : C.run s [] = some s := rfl

theorem run_cons (s : S) (b : UInt8) (bytes : List UInt8) :
    C.run s (b :: bytes) = (C.step s b).bind fun s' => C.run s' bytes := List.foldlM_cons

theorem run_append (s : S) (bytes bytes' : List UInt8) :
    C.run s (bytes ++ bytes') = (C.run s bytes).bind fun s' => C.run s' bytes' :=
  List.foldlM_append

/-- Reading `bytes` takes the states `p` to the states `q`. -/
def Moves (C : BraceScanner S limit) (p q : List UInt8 → S) (bytes : List UInt8) : Prop :=
  ∀ read, C.run (p read) bytes = some (q (read ++ bytes))

variable {p q r : List UInt8 → S}

theorem Moves.nil : Moves C p p [] := fun read => by rw [List.append_nil, run_nil]

theorem Moves.single {b : UInt8} (h : ∀ read, C.step (p read) b = some (q (read ++ [b]))) :
    Moves C p q [b] := fun read => by rw [run_cons, h]; rfl

theorem Moves.append (h : Moves C p q bytes) (h' : Moves C q r bytes') :
    Moves C p r (bytes ++ bytes') := by
  intro read
  rw [run_append, h, Option.bind_some, h', List.append_assoc]

theorem Moves.cons {b : UInt8} (h : ∀ read, C.step (p read) b = some (q (read ++ [b])))
    (h' : Moves C q r bytes) : Moves C p r (b :: bytes) := (Moves.single h).append h'

/-- Bytes each of which leaves the scanner where it is. -/
theorem Moves.all (h : ∀ b ∈ bytes, ∀ read, C.step (p read) b = some (p (read ++ [b]))) :
    Moves C p p bytes := by
  induction bytes with
  | nil => exact Moves.nil
  | cons b bytes ih =>
    exact Moves.cons (h b List.mem_cons_self) (ih fun b hb => h b (List.mem_cons_of_mem _ hb))

/-! ## 1. Tokens -/

/-- Reading `bytes` outside a string with `d` braces open leaves the scanner so. -/
def Skips (C : BraceScanner S limit) (d : Nat) (bytes : List UInt8) : Prop :=
  Moves C (C.outside · d) (C.outside · d) bytes

theorem skips_quiet (h : ∀ b ∈ bytes, Quiet b) : Skips C d bytes :=
  Moves.all fun b hb read => C.step_quiet read d b (h b hb)

theorem skips_whitespace (w : Whitespace) : Skips C d w.bytes := skips_quiet w.quiet

/-- A quiet byte, and more. -/
theorem Skips.cons {b : UInt8} (hb : Quiet b) (h : Skips C d bytes) : Skips C d (b :: bytes) :=
  Moves.cons (fun read => C.step_quiet read d b hb) h

/-- **A character of a string** leaves the scanner inside the string, whatever it is. -/
theorem moves_char (c : StringChar) : Moves C (C.inString · d) (C.inString · d) c.bytes := by
  have hescape : ∀ b, Moves C (C.inString · d) (C.inString · d) [0x5C, b] := fun b =>
    Moves.cons (q := (C.escaped · d)) (fun read => C.step_backslash read d)
      (Moves.single fun read => C.step_escaped read d b)
  cases c with
  | unescaped c control quote backslash =>
    refine Moves.all fun b hb read => ?_
    obtain ⟨h₁, h₂⟩ := StringChar.unescaped_bytes quote backslash b hb
    exact C.step_char read d b h₁ h₂
  | escape e => exact hescape e.byte
  | unicode d₁ d₂ d₃ d₄ =>
    show Moves C _ _ ([0x5C, 0x75] ++ [d₁.byte, d₂.byte, d₃.byte, d₄.byte])
    refine Moves.append (hescape 0x75) (Moves.all fun b hb read => ?_)
    have hhex : ∃ e : HexDigit, b = e.byte := by
      simp only [List.mem_cons, List.not_mem_nil, or_false] at hb
      rcases hb with rfl | rfl | rfl | rfl
      exacts [⟨d₁, rfl⟩, ⟨d₂, rfl⟩, ⟨d₃, rfl⟩, ⟨d₄, rfl⟩]
    obtain ⟨e, rfl⟩ := hhex
    exact C.step_char read d e.byte e.quiet.quote e.quiet.backslash

/-- **A string** leaves the scanner outside it. -/
theorem skips_quoted (cs : Chars) : Skips C d cs.quoted := by
  have hchars : Moves C (C.inString · d) (C.inString · d) cs.bytes := by
    induction cs with
    | nil => exact Moves.nil
    | cons c cs ih => exact (moves_char c).append ih
  refine Moves.cons (q := (C.inString · d)) (fun read => C.step_quote read d) ?_
  exact hchars.append (Moves.single fun read => C.step_endQuote read d)

/-- **An inner object**, when what is inside it leaves the scanner one level deeper. -/
theorem skips_braces (hd : 0 < d) (hlimit : d < limit) (h : Skips C (d + 1) bytes) :
    Skips C d (0x7B :: (bytes ++ [0x7D])) :=
  Moves.cons (q := (C.outside · (d + 1))) (fun read => C.step_open read d hlimit)
    (Moves.append h (Moves.single fun read => C.step_close read d hd hlimit))

/-! ## 2. Values -/

mutual

/-- **A value** leaves the scanner as it was, as long as its objects fit. -/
theorem value {d : Nat} (hd : 0 < d) : ∀ v : Value, d + v.depth ≤ limit → Skips C d v.bytes
  | .literal l, _ => skips_quiet l.quiet
  | .number n, _ => skips_quiet n.quiet
  | .string cs, _ => skips_quoted cs
  | .emptyArray inside, _ =>
    Skips.cons (by decide) ((skips_whitespace inside).append (skips_quiet (quiet_of_all rfl)))
  | .array es, h =>
    Skips.cons (by decide) ((elements hd es h).append (skips_quiet (quiet_of_all rfl)))
  | .object o, h =>
    have hinner : d + 1 + o.innerDepth ≤ limit := by
      rw [Value.depth] at h
      omega
    skips_braces hd (by omega) (object (Nat.succ_pos d) o hinner)

theorem elements {d : Nat} (hd : 0 < d) :
    ∀ es : Elements, d + es.depth ≤ limit → Skips C d es.bytes
  | .last before v after, h =>
    ((skips_whitespace before).append (value hd v h)).append (skips_whitespace after)
  | .more before v after rest, h =>
    have hv : d + v.depth ≤ limit := by rw [Elements.depth] at h; omega
    have hrest : d + rest.depth ≤ limit := by rw [Elements.depth] at h; omega
    (((skips_whitespace before).append (value hd v hv)).append (skips_whitespace after)).append
      (Skips.cons (by decide) (elements hd rest hrest))

/-- **The inside of an object** leaves the scanner as it was. -/
theorem object {d : Nat} (hd : 0 < d) :
    ∀ o : Object, d + o.innerDepth ≤ limit → Skips C d o.inner
  | .empty inside, _ => skips_whitespace inside
  | .members ms, h => members hd ms h

theorem members {d : Nat} (hd : 0 < d) :
    ∀ ms : Members, d + ms.depth ≤ limit → Skips C d ms.bytes
  | .last before name beforeColon afterColon v after, h =>
    (((skips_whitespace before).append (skips_quoted name)).append
      (skips_whitespace beforeColon)).append (Skips.cons (by decide)
        (((skips_whitespace afterColon).append (value hd v h)).append (skips_whitespace after)))
  | .more before name beforeColon afterColon v after rest, h =>
    have hv : d + v.depth ≤ limit := by rw [Members.depth] at h; omega
    have hrest : d + rest.depth ≤ limit := by rw [Members.depth] at h; omega
    (((skips_whitespace before).append (skips_quoted name)).append
      (skips_whitespace beforeColon)).append (Skips.cons (by decide)
        ((((skips_whitespace afterColon).append (value hd v hv)).append
          (skips_whitespace after)).append (Skips.cons (by decide) (members hd rest hrest))))

end

end BraceScanner

end Json
