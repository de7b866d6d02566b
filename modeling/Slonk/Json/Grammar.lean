/-
# JSON text

The grammar of RFC 8259 as concrete syntax trees.  A tree says everything the text says, the
whitespace between the tokens and the spelling of every number and string included, and every
tree is a text of the grammar: `Value.bytes` and `Object.bytes` are its encoding in UTF-8.

The file also says which bytes such a text can contain where.  Outside strings, a scanner that
looks only for braces, quotes and backslashes sees nothing in whitespace, literals and numbers
(`Quiet`); inside strings, an unescaped character is neither a quote nor a backslash, nor is any
byte of its encoding (`StringChar.unescaped_bytes`).
-/
import Mathlib.Tactic

namespace Json

/-! ## 1. Whitespace, literals and numbers -/

/-- One character of `ws`. -/
inductive Blank
  | space
  | tab
  | lineFeed
  | carriageReturn
  deriving DecidableEq, Repr

def Blank.byte : Blank → UInt8
  | .space => 0x20
  | .tab => 0x09
  | .lineFeed => 0x0A
  | .carriageReturn => 0x0D

/-- `ws` -/
abbrev Whitespace := List Blank

def Whitespace.bytes (w : Whitespace) : List UInt8 := w.map Blank.byte

/-- `false`, `null` and `true`. -/
inductive Literal
  | false
  | null
  | true
  deriving DecidableEq, Repr

def Literal.bytes : Literal → List UInt8
  | .false => [0x66, 0x61, 0x6C, 0x73, 0x65]
  | .null => [0x6E, 0x75, 0x6C, 0x6C]
  | .true => [0x74, 0x72, 0x75, 0x65]

/-- `DIGIT` -/
abbrev Digit := Fin 10

def Digit.byte (d : Digit) : UInt8 := 0x30 + UInt8.ofNat d

/-- `1*DIGIT` -/
structure Digits where
  first : Digit
  rest : List Digit
  deriving DecidableEq, Repr

def Digits.bytes (ds : Digits) : List UInt8 := (ds.first :: ds.rest).map Digit.byte

/-- `int`: no superfluous zero in front. -/
inductive IntPart
  | zero
  | nonzero (first : Digit) (h : first ≠ 0) (rest : List Digit)
  deriving DecidableEq, Repr

def IntPart.bytes : IntPart → List UInt8
  | .zero => [Digit.byte 0]
  | .nonzero first _ rest => (first :: rest).map Digit.byte

/-- `exp`: `e` or `E`, a sign or none, and digits. -/
structure Exponent where
  upper : Bool
  sign : Option Bool
  digits : Digits
  deriving DecidableEq, Repr

def Exponent.bytes (e : Exponent) : List UInt8 :=
  (if e.upper then 0x45 else 0x65)
    :: ((match e.sign with
          | none => []
          | some Bool.true => [0x2B]
          | some Bool.false => [0x2D])
      ++ e.digits.bytes)

/-- `number` -/
structure Number where
  minus : Bool
  int : IntPart
  frac : Option Digits
  exp : Option Exponent
  deriving DecidableEq, Repr

def Number.bytes (n : Number) : List UInt8 :=
  (if n.minus then [0x2D] else [])
    ++ n.int.bytes
    ++ (match n.frac with
        | none => []
        | some digits => 0x2E :: digits.bytes)
    ++ (match n.exp with
        | none => []
        | some e => e.bytes)

/-! ## 2. Strings -/

/-- What may follow a backslash, apart from `u`. -/
inductive Escape
  | quotationMark
  | reverseSolidus
  | solidus
  | backspace
  | formFeed
  | lineFeed
  | carriageReturn
  | tab
  deriving DecidableEq, Repr

def Escape.byte : Escape → UInt8
  | .quotationMark => 0x22
  | .reverseSolidus => 0x5C
  | .solidus => 0x2F
  | .backspace => 0x62
  | .formFeed => 0x66
  | .lineFeed => 0x6E
  | .carriageReturn => 0x72
  | .tab => 0x74

/-- `HEXDIG`, in either case. -/
structure HexDigit where
  value : Fin 16
  upper : Bool
  deriving DecidableEq, Repr

def HexDigit.byte (d : HexDigit) : UInt8 :=
  if d.value < 10 then 0x30 + UInt8.ofNat d.value
  else if d.upper then 0x37 + UInt8.ofNat d.value
  else 0x57 + UInt8.ofNat d.value

/-- `char` -/
inductive StringChar
  | unescaped (c : Char) (control : 0x20 ≤ c.toNat) (quote : c.toNat ≠ 0x22)
      (backslash : c.toNat ≠ 0x5C)
  | escape (e : Escape)
  | unicode (d₁ d₂ d₃ d₄ : HexDigit)
  deriving DecidableEq, Repr

def StringChar.bytes : StringChar → List UInt8
  | .unescaped c _ _ _ => String.utf8EncodeChar c
  | .escape e => [0x5C, e.byte]
  | .unicode d₁ d₂ d₃ d₄ => [0x5C, 0x75, d₁.byte, d₂.byte, d₃.byte, d₄.byte]

/-- `string`, without its quotation marks. -/
abbrev Chars := List StringChar

def Chars.bytes (cs : Chars) : List UInt8 := cs.flatMap StringChar.bytes

/-- `string` -/
def Chars.quoted (cs : Chars) : List UInt8 := 0x22 :: (cs.bytes ++ [0x22])

/-! ## 3. Values -/

mutual

/-- `value` -/
inductive Value
  | literal (l : Literal)
  | number (n : Number)
  | string (cs : Chars)
  | emptyArray (inside : Whitespace)
  | array (elements : Elements)
  | object (o : Object)

/-- What stands between the brackets of an array that is not empty. -/
inductive Elements
  | last (before : Whitespace) (value : Value) (after : Whitespace)
  | more (before : Whitespace) (value : Value) (after : Whitespace) (rest : Elements)

/-- `object` -/
inductive Object
  | empty (inside : Whitespace)
  | members (ms : Members)

/-- What stands between the braces of an object that is not empty. -/
inductive Members
  | last (before : Whitespace) (name : Chars) (beforeColon afterColon : Whitespace)
      (value : Value) (after : Whitespace)
  | more (before : Whitespace) (name : Chars) (beforeColon afterColon : Whitespace)
      (value : Value) (after : Whitespace) (rest : Members)

end

mutual

def Value.bytes : Value → List UInt8
  | .literal l => l.bytes
  | .number n => n.bytes
  | .string cs => cs.quoted
  | .emptyArray inside => 0x5B :: (inside.bytes ++ [0x5D])
  | .array elements => 0x5B :: (elements.bytes ++ [0x5D])
  | .object o => 0x7B :: (o.inner ++ [0x7D])

def Elements.bytes : Elements → List UInt8
  | .last before value after => before.bytes ++ value.bytes ++ after.bytes
  | .more before value after rest =>
    before.bytes ++ value.bytes ++ after.bytes ++ 0x2C :: rest.bytes

/-- The bytes between the braces. -/
def Object.inner : Object → List UInt8
  | .empty inside => inside.bytes
  | .members ms => ms.bytes

def Members.bytes : Members → List UInt8
  | .last before name beforeColon afterColon value after =>
    before.bytes ++ name.quoted ++ beforeColon.bytes ++ 0x3A :: (afterColon.bytes ++ value.bytes
      ++ after.bytes)
  | .more before name beforeColon afterColon value after rest =>
    before.bytes ++ name.quoted ++ beforeColon.bytes ++ 0x3A :: (afterColon.bytes ++ value.bytes
      ++ after.bytes ++ 0x2C :: rest.bytes)

end

def Object.bytes (o : Object) : List UInt8 := 0x7B :: (o.inner ++ [0x7D])

mutual

/-- How many objects are open at once, at most.  Arrays do not count, so this is at most the
nesting of the value. -/
def Value.depth : Value → Nat
  | .array elements => elements.depth
  | .object o => o.innerDepth + 1
  | _ => 0

def Elements.depth : Elements → Nat
  | .last _ value _ => value.depth
  | .more _ value _ rest => max value.depth rest.depth

/-- How many objects are open at once inside this one. -/
def Object.innerDepth : Object → Nat
  | .empty _ => 0
  | .members ms => ms.depth

def Members.depth : Members → Nat
  | .last _ _ _ _ value _ => value.depth
  | .more _ _ _ _ value _ rest => max value.depth rest.depth

end

def Object.depth (o : Object) : Nat := o.innerDepth + 1

/-! ## 4. Quiet bytes -/

/-- Neither a brace nor a quotation mark nor a backslash. -/
structure Quiet (b : UInt8) : Prop where
  openBrace : b ≠ 0x7B
  closeBrace : b ≠ 0x7D
  quote : b ≠ 0x22
  backslash : b ≠ 0x5C

theorem quiet_iff {b : UInt8} : Quiet b ↔ b ≠ 0x7B ∧ b ≠ 0x7D ∧ b ≠ 0x22 ∧ b ≠ 0x5C :=
  ⟨fun h => ⟨h.openBrace, h.closeBrace, h.quote, h.backslash⟩, fun ⟨h₁, h₂, h₃, h₄⟩ =>
    ⟨h₁, h₂, h₃, h₄⟩⟩

instance (b : UInt8) : Decidable (Quiet b) := decidable_of_iff' _ quiet_iff

/-- Quietness of concrete bytes, one after the other. -/
theorem quiet_of_all {bytes : List UInt8} (h : bytes.all (fun b => decide (Quiet b)) = true) :
    ∀ b ∈ bytes, Quiet b :=
  fun b hb => of_decide_eq_true (List.all_eq_true.mp h b hb)

theorem Blank.quiet (b : Blank) : Quiet b.byte := by
  cases b <;> decide

theorem Whitespace.quiet (w : Whitespace) : ∀ b ∈ w.bytes, Quiet b := by
  intro b hb
  obtain ⟨c, -, rfl⟩ := List.mem_map.mp hb
  exact c.quiet

theorem Literal.quiet (l : Literal) : ∀ b ∈ l.bytes, Quiet b := by
  cases l <;> exact quiet_of_all rfl

theorem Digit.quiet (d : Digit) : Quiet d.byte := by
  revert d
  decide

theorem Digits.quiet (ds : Digits) : ∀ b ∈ ds.bytes, Quiet b := by
  intro b hb
  obtain ⟨d, -, rfl⟩ := List.mem_map.mp hb
  exact d.quiet

theorem IntPart.quiet (i : IntPart) : ∀ b ∈ i.bytes, Quiet b := by
  cases i with
  | zero => exact quiet_of_all rfl
  | nonzero first h rest =>
    intro b hb
    obtain ⟨d, -, rfl⟩ := List.mem_map.mp hb
    exact d.quiet

theorem Exponent.quiet (e : Exponent) : ∀ b ∈ e.bytes, Quiet b := by
  obtain ⟨upper, sign, digits⟩ := e
  intro b hb
  rcases List.mem_cons.mp hb with rfl | hb
  · cases upper
    · exact (by decide : Quiet 0x65)
    · exact (by decide : Quiet 0x45)
  · rcases List.mem_append.mp hb with hb | hb
    · match sign with
      | none => cases hb
      | some Bool.true => obtain rfl := List.mem_singleton.mp hb; decide
      | some Bool.false => obtain rfl := List.mem_singleton.mp hb; decide
    · exact digits.quiet b hb

theorem Number.quiet (n : Number) : ∀ b ∈ n.bytes, Quiet b := by
  obtain ⟨minus, int, frac, exp⟩ := n
  intro b hb
  simp only [Number.bytes, List.mem_append] at hb
  rcases hb with ((hb | hb) | hb) | hb
  · cases minus with
    | true => obtain rfl := List.mem_singleton.mp hb; decide
    | false => cases hb
  · exact int.quiet b hb
  · cases frac with
    | none => cases hb
    | some digits =>
      rcases List.mem_cons.mp hb with rfl | hb
      · decide
      · exact digits.quiet b hb
  · cases exp with
    | none => cases hb
    | some e => exact e.quiet b hb

theorem HexDigit.quiet (d : HexDigit) : Quiet d.byte := by
  obtain ⟨value, upper⟩ := d
  revert value upper
  decide

/-- A byte that is not the first of an encoded character, or not its only one. -/
theorem le_toNat_ofNat {x k : Nat} (h : x + k < 256) (hk : 0x80 ≤ k) :
    0x80 ≤ (UInt8.ofNat (x + k)).toNat := by
  rw [UInt8.toNat_ofNat']
  omega

/-- An encoded character is one byte below 0x80, the character itself, or all its bytes are
from 0x80 on. -/
theorem utf8_cases (c : Char) :
    (c.toNat < 0x80 ∧ String.utf8EncodeChar c = [UInt8.ofNat c.toNat]) ∨
      ∀ b ∈ String.utf8EncodeChar c, 0x80 ≤ b.toNat := by
  unfold String.utf8EncodeChar
  simp only
  split
  · rename_i hlt
    exact Or.inl ⟨Nat.lt_succ_of_le hlt, rfl⟩
  · refine Or.inr ?_
    have hcons : ∀ {x k : Nat} {bs : List UInt8}, x + k < 256 → 0x80 ≤ k →
        (∀ b ∈ bs, 0x80 ≤ b.toNat) → ∀ b ∈ UInt8.ofNat (x + k) :: bs, 0x80 ≤ b.toNat :=
      fun h hk hbs => List.forall_mem_cons.mpr ⟨le_toNat_ofNat h hk, hbs⟩
    split
    · exact hcons (by omega) (by omega) (hcons (by omega) (by omega) nofun)
    · split
      · exact hcons (by omega) (by omega)
          (hcons (by omega) (by omega) (hcons (by omega) (by omega) nofun))
      · exact hcons (by omega) (by omega) (hcons (by omega) (by omega)
          (hcons (by omega) (by omega) (hcons (by omega) (by omega) nofun)))

/-- **No byte of an unescaped character is a quotation mark or a backslash.** -/
theorem StringChar.unescaped_bytes {c : Char} (quote : c.toNat ≠ 0x22)
    (backslash : c.toNat ≠ 0x5C) : ∀ b ∈ String.utf8EncodeChar c, b ≠ 0x22 ∧ b ≠ 0x5C := by
  have hne : ∀ {b : UInt8}, b.toNat ≠ 0x22 → b.toNat ≠ 0x5C → b ≠ 0x22 ∧ b ≠ 0x5C :=
    fun h₁ h₂ => ⟨fun h => h₁ (by rw [h]; rfl), fun h => h₂ (by rw [h]; rfl)⟩
  intro b hb
  rcases utf8_cases c with ⟨hlt, heq⟩ | hge
  · rw [heq] at hb
    obtain rfl := List.mem_singleton.mp hb
    have hval : (UInt8.ofNat c.toNat).toNat = c.toNat := by
      rw [UInt8.toNat_ofNat']
      omega
    exact hne (by rwa [hval]) (by rwa [hval])
  · have := hge b hb
    exact hne (by omega) (by omega)

end Json
