/-
# Reading the ADCs

`hardware/mod.rs`: `Mcp3208::read` sends the start bit and a channel in three bytes over the SPI
bus, and takes the reading out of the last twelve of the twenty-four levels it samples meanwhile.

What a read does is said in terms of the pins only: `edges` replays the calls of a program on the
pins and lists the rising edges of the clock, each with the levels of the pins at that moment and
the levels sampled from MISO while the clock stays high.  `ReadFaithful` is then the protocol of
the chip at those edges, and `reads_faithful` that every read of every sequence of reads on one bus
keeps to it.

The way there goes from the inside out: a bit, a byte, a buffer, a transfer, each with the calls it
makes for the levels it has sampled.
-/
import Slonk.Spi

namespace Slonk

open Concurrency

namespace Mcp3208

open Spi

/-! ## 1. The read -/

/-- `u16::from_be_bytes`. -/
def fromBeBytes (high low : UInt8) : UInt16 := (high.toUInt16 <<< 8) ||| low.toUInt16

/-- The text of the one error of `read` itself. -/
def noNullBit : String := "no null bit received from ADC - is it connected?"

/-- `Mcp3208::read`, on the device with this number. -/
def read (device : Nat) (channel : UInt8) : SpiProc UInt16 :=
  -- `assert!((0..8).contains(&channel))`
  if 8 ≤ channel then Fallible.abort
  else do
    let outgoing : List UInt8 := [(0x6 : UInt8) ||| (channel >>> 2), (channel &&& 0x3) <<< 6, 0]
    match ← transfer device outgoing [0, 0, 0] with
    | [_, second, third] =>
      -- "verify that we received a null bit"
      if second &&& 0x10 ≠ 0 then throw (.hardware noNullBit)
      else
        -- "mask out high-Z data in incoming bytes"
        pure (fromBeBytes (second &&& 0x0F) third)
    -- a transfer keeps the length of the buffer
    | _ => Fallible.abort

/-- These reads, one after the other, whatever they return: a device and a channel each. -/
def readAll : List (Nat × UInt8) → Prog PinOp PinOp.Ans (List (Except Error UInt16))
  | [] => .ret []
  | (device, channel) :: rest =>
    (read device channel).run.bind fun r => (readAll rest).bind fun rs => .ret (r :: rs)

/-! ## 2. What happens at the pins -/

/-- The levels of the pins the program drives. -/
structure Pins where
  clk : Bool
  mosi : Bool
  chipSelects : Nat → Bool

/-- The pins of the bus and the devices on it. -/
def Pins.ofBus (b : Bus) : Pins := ⟨b.pinClk, b.pinMosi, b.chipSelects⟩

/-- The pins after a call. -/
def Pins.after (p : Pins) : Call PinOp.Ans → Pins
  | ⟨.clk value, some (.ok _)⟩ => { p with clk := value }
  | ⟨.mosi value, some (.ok _)⟩ => { p with mosi := value }
  | ⟨.select device value, some (.ok _)⟩ =>
    { p with chipSelects := Function.update p.chipSelects device value }
  | _ => p

/-- The pins after these calls. -/
def Pins.replay (p : Pins) (h : List (Call PinOp.Ans)) : Pins := h.foldl Pins.after p

@[simp] theorem Pins.replay_nil (p : Pins) : p.replay [] = p := rfl

@[simp] theorem Pins.replay_cons (p : Pins) (c : Call PinOp.Ans) (h : List (Call PinOp.Ans)) :
    p.replay (c :: h) = (p.after c).replay h := rfl

@[simp] theorem Pins.replay_append (p : Pins) (h h' : List (Call PinOp.Ans)) :
    p.replay (h ++ h') = (p.replay h).replay h' := by
  simp [Pins.replay]

/-- A rising edge of the clock: the pins at it, and the levels read from MISO until the clock is
next written. -/
structure Edge where
  pins : Pins
  samples : List Bool

/-- The levels read from MISO until the clock is next written. -/
def samples : List (Call PinOp.Ans) → List Bool
  | ⟨.miso, some (.ok level)⟩ :: rest => level :: samples rest
  | ⟨.clk _, some (.ok _)⟩ :: _ => []
  | _ :: rest => samples rest
  | [] => []

/-- The rising edges of the clock in these calls. -/
def edges (p : Pins) : List (Call PinOp.Ans) → List Edge
  | ⟨.clk true, some (.ok _)⟩ :: rest =>
    if p.clk then edges p rest
    else ⟨p, samples rest⟩ :: edges { p with clk := true } rest
  | c :: rest => edges (p.after c) rest
  | [] => []

/-- **The replay is what happens**: an operation does to the pins what its call says. -/
theorem ofBus_exec (o : PinOp) (env : PinEnv) (b : Bus) :
    Pins.ofBus (exec o env b).2 = (Pins.ofBus b).after ⟨o, (exec o env b).1⟩ := by
  cases o with
  | unlock => rfl
  | sleep _ => rfl
  | _ =>
    simp only [exec]
    split
    · rfl
    · rfl

/-- A program leaves the pins as the replay of its calls does. -/
theorem ofBus_eval {α : Type} (p : Prog PinOp PinOp.Ans α) (ω : Nat → PinEnv) (b : Bus) :
    Pins.ofBus (eval machine p ω b).shared =
      (Pins.ofBus b).replay (eval machine p ω b).calls := by
  induction p generalizing ω b with
  | ret a => rfl
  | panic => rfl
  | op o k ih =>
    have hexec := ofBus_exec o (ω 0) b
    cases h : (exec o (ω 0) b).1 with
    | none =>
      rw [eval_op_none h]
      simpa [h] using hexec
    | some a =>
      rw [eval_op_some h]
      simp only [Result.push, Pins.replay_cons, ih, machine_exec]
      rw [hexec, h]

/-- Nothing done to the pins poisons the mutex. -/
theorem poisoned_eval {α : Type} (p : Prog PinOp PinOp.Ans α) (ω : Nat → PinEnv) (b : Bus) :
    (eval machine p ω b).shared.poisoned = b.poisoned := by
  refine eval_preserves (fun o env b => ?_) p ω b
  cases o with
  | unlock => rfl
  | sleep _ => rfl
  | miso => rfl
  | _ =>
    simp only [machine_exec, exec]
    split
    · rfl
    · rfl

/-- A specification may say so. -/
theorem spec_replay {α : Type} {E : PinEnv → Prop} {p : Prog PinOp PinOp.Ans α} {b : Bus}
    {Q : α → List (Call PinOp.Ans) → Bus → Prop} (h : Spec machine E p b Q) :
    Spec machine E p b fun a h b' => Q a h b' ∧ Pins.ofBus b' = (Pins.ofBus b).replay h ∧
      b'.poisoned = b.poisoned := by
  intro ω hω
  obtain ⟨a, ha, hQ⟩ := h ω hω
  exact ⟨a, ha, hQ, ofBus_eval p ω b, poisoned_eval p ω b⟩

/-! ## 3. The calls of a transfer -/

/-- Nothing fails. -/
def Works (env : PinEnv) : Prop := env.selectFails = false ∧ env.pinFails = false

/-- The calls for one bit, at this level of MOSI and with this level sampled from MISO. -/
def bitCalls (halfPeriod : Duration) (value level : Bool) : List (Call PinOp.Ans) :=
  [⟨.mosi value, some (.ok ())⟩, ⟨.sleep halfPeriod, some ()⟩, ⟨.clk true, some (.ok ())⟩,
    ⟨.miso, some (.ok level)⟩, ⟨.sleep halfPeriod, some ()⟩, ⟨.clk false, some (.ok ())⟩]

/-- The calls for several bits. -/
def bitsCalls (halfPeriod : Duration) (bits : List (Bool × Bool)) : List (Call PinOp.Ans) :=
  bits.flatMap fun bit => bitCalls halfPeriod bit.1 bit.2

@[simp] theorem bitsCalls_nil (halfPeriod : Duration) : bitsCalls halfPeriod [] = [] := rfl

@[simp] theorem bitsCalls_cons (halfPeriod : Duration) (bit : Bool × Bool)
    (bits : List (Bool × Bool)) : bitsCalls halfPeriod (bit :: bits) =
      bitCalls halfPeriod bit.1 bit.2 ++ bitsCalls halfPeriod bits := rfl

@[simp] theorem bitsCalls_append (halfPeriod : Duration) (bits bits' : List (Bool × Bool)) :
    bitsCalls halfPeriod (bits ++ bits') =
      bitsCalls halfPeriod bits ++ bitsCalls halfPeriod bits' := by
  simp [bitsCalls]

/-- What `transferBit` sends of a byte. -/
def bitOut (byteOut bitIdx : UInt8) : Bool := (1 <<< bitIdx &&& byteOut) != 0

/-- What it makes of a byte with a level sampled. -/
def bitIn (byteIn : UInt8) (bit : UInt8 × Bool) : UInt8 := byteIn ||| bit.2.toUInt8 <<< bit.1

theorem exec_mosi {env : PinEnv} (henv : Works env) (value : Bool) (b : Bus) :
    exec (.mosi value) env b = (some (.ok ()), { b with pinMosi := value }) := by
  simp [exec, henv.2]

theorem exec_clk {env : PinEnv} (henv : Works env) (value : Bool) (b : Bus) :
    exec (.clk value) env b = (some (.ok ()), { b with pinClk := value }) := by
  simp [exec, henv.2]

theorem exec_miso {env : PinEnv} (henv : Works env) (b : Bus) :
    exec .miso env b = (some (.ok env.miso), b) := by
  simp [exec, henv.2]

theorem exec_select {env : PinEnv} (henv : Works env) (device : Nat) (value : Bool) (b : Bus) :
    exec (.select device value) env b =
      (some (.ok ()), { b with chipSelects := Function.update b.chipSelects device value }) := by
  simp [exec, henv.1]

theorem exec_sleep (env : PinEnv) (duration : Duration) (b : Bus) :
    exec (.sleep duration) env b = (some (), b) := rfl

/-- **A bit.** -/
theorem spec_transferBit (halfPeriod : Duration) (byteOut byteIn bitIdx : UInt8) (b : Bus) :
    (transferBit halfPeriod byteOut byteIn bitIdx).Succeeds machine Works b fun r h _ =>
      ∃ level, r = bitIn byteIn (bitIdx, level) ∧
        h = bitCalls halfPeriod (bitOut byteOut bitIdx) level := by
  refine Spec.op_eq fun env henv => ⟨_, _, exec_mosi henv _ _, ?_⟩
  refine Spec.op_eq fun env _ => ⟨_, _, exec_sleep env _ _, ?_⟩
  refine Spec.op_eq fun env henv => ⟨_, _, exec_clk henv _ _, ?_⟩
  refine Spec.op_eq fun env henv => ⟨_, _, exec_miso henv _, ?_⟩
  refine Spec.op_eq fun env' _ => ⟨_, _, exec_sleep env' _ _, ?_⟩
  refine Spec.op_eq fun env' henv => ⟨_, _, exec_clk henv _ _, ?_⟩
  exact Spec.ret ⟨_, rfl, env.miso, rfl, rfl⟩

/-- **The bits of a byte**, in the order of the indices. -/
theorem spec_transferBits (halfPeriod : Duration) (byteOut : UInt8) :
    ∀ (idxs : List UInt8) (byteIn : UInt8) (b : Bus),
      Fallible.Succeeds machine Works (idxs.foldlM (transferBit halfPeriod byteOut) byteIn) b
        fun r h _ => ∃ levels, levels.length = idxs.length ∧
          r = (idxs.zip levels).foldl bitIn byteIn ∧
          h = bitsCalls halfPeriod ((idxs.map (bitOut byteOut)).zip levels)
  | [], byteIn, b => Fallible.Succeeds.pure ⟨[], rfl, rfl, rfl⟩
  | idx :: idxs, byteIn, b => by
    rw [List.foldlM_cons]
    refine Fallible.Succeeds.bind ((spec_transferBit halfPeriod byteOut byteIn idx b).mono ?_)
    rintro _ _ b' ⟨level, rfl, rfl⟩
    refine (spec_transferBits halfPeriod byteOut idxs _ b').mono ?_
    rintro _ _ b'' ⟨levels, hlen, rfl, rfl⟩
    exact ⟨level :: levels, by simp [hlen], rfl, by simp⟩

/-- The bits of a byte as they are sent. -/
def bitsOut (byteOut : UInt8) : List Bool := bitIndices.map (bitOut byteOut)

/-- The byte that eight levels make, first the most significant bit. -/
def byteOf (byteIn : UInt8) (levels : List Bool) : UInt8 :=
  (bitIndices.zip levels).foldl bitIn byteIn

/-- The bits of a buffer as they are sent, with the levels sampled. -/
def bufferBits (buffers : List (UInt8 × UInt8)) (levels : List (List Bool)) :
    List (Bool × Bool) :=
  (buffers.zip levels).flatMap fun byte => (bitsOut byte.1.1).zip byte.2

/-- **The bytes of a buffer.** -/
theorem spec_transferBytes (halfPeriod : Duration) :
    ∀ (buffers : List (UInt8 × UInt8)) (b : Bus),
      (transferBytes halfPeriod buffers).Succeeds machine Works b fun r h _ =>
        ∃ levels : List (List Bool), levels.length = buffers.length ∧
          (∀ l ∈ levels, l.length = 8) ∧
          r = (buffers.zip levels).map (fun byte => byteOf byte.1.2 byte.2) ∧
          h = bitsCalls halfPeriod (bufferBits buffers levels)
  | [], b => Fallible.Succeeds.pure ⟨[], rfl, by simp, rfl, rfl⟩
  | (byteOut, byteIn) :: buffers, b => by
    unfold transferBytes
    refine Fallible.Succeeds.bind
      ((spec_transferBits halfPeriod byteOut bitIndices byteIn b).mono ?_)
    rintro _ _ b' ⟨levels, hlen, rfl, rfl⟩
    refine Fallible.Succeeds.bind ((spec_transferBytes halfPeriod buffers b').mono ?_)
    rintro _ _ b'' ⟨levels', hlen', height, rfl, rfl⟩
    refine Fallible.Succeeds.pure ⟨levels :: levels', by simp [hlen'], ?_, rfl, ?_⟩
    · rw [List.forall_mem_cons]
      exact ⟨hlen, height⟩
    · simp [bufferBits, bitsOut]

/-- A bus between transfers: the clock is low, every chip select is high, and the mutex is not
poisoned. -/
structure Rests (b : Bus) : Prop where
  pinClk : b.pinClk = false
  chipSelects : ∀ device, b.chipSelects device = true
  poisoned : b.poisoned = false

/-- The calls of a transfer. -/
def transferCalls (device : Nat) (period : Duration) (bits : List (Bool × Bool)) :
    List (Call PinOp.Ans) :=
  ⟨.lock device, some (.ok period)⟩ :: ⟨.select device false, some (.ok ())⟩ ::
    (bitsCalls (period / 2) bits ++
      [⟨.select device true, some (.ok ())⟩, ⟨.unlock, some ()⟩])

/-- **A transfer** makes these calls, for the levels it samples. -/
theorem spec_transfer (device : Nat) {outgoing incoming : List UInt8}
    (hlen : outgoing.length = incoming.length) {b : Bus} (hb : b.poisoned = false) :
    (transfer device outgoing incoming).Succeeds machine Works b fun r h _ =>
      ∃ levels : List (List Bool), levels.length = (outgoing.zip incoming).length ∧
        (∀ l ∈ levels, l.length = 8) ∧
        r = ((outgoing.zip incoming).zip levels).map (fun byte => byteOf byte.1.2 byte.2) ∧
        h = transferCalls device b.period (bufferBits (outgoing.zip incoming) levels) := by
  unfold transfer
  rw [if_neg (not_not.mpr hlen)]
  refine Fallible.Succeeds.bind (Fallible.Succeeds.attempt fun env _ => ?_)
  refine ⟨.ok b.period, { b with holder := some device }, b.period, by simp [exec, hb], rfl, ?_⟩
  refine Fallible.Succeeds.thenAlways ?_
  refine Fallible.Succeeds.bind (Fallible.Succeeds.attempt fun env henv => ?_)
  refine ⟨_, _, (), exec_select henv device false _, rfl, ?_⟩
  refine Fallible.Succeeds.bind ((spec_transferBytes _ _ _).mono ?_)
  rintro _ _ b' ⟨levels, hlevels, height, rfl, rfl⟩
  refine Fallible.Succeeds.bind (Fallible.Succeeds.attempt fun env henv => ?_)
  refine ⟨_, _, (), exec_select henv device true _, rfl, ?_⟩
  refine Fallible.Succeeds.pure fun env _ => ⟨(), _, rfl, ?_⟩
  exact ⟨levels, hlevels, height, rfl, by simp [transferCalls]⟩

theorem replay_bitCalls (p : Pins) (halfPeriod : Duration) (value level : Bool) :
    p.replay (bitCalls halfPeriod value level) = { p with mosi := value, clk := false } := rfl

/-- After its bits the clock is low again, and the chip selects are as they were. -/
theorem replay_bitsCalls (halfPeriod : Duration) :
    ∀ {p : Pins} (bits : List (Bool × Bool)), p.clk = false →
      ∃ value, p.replay (bitsCalls halfPeriod bits) = { p with mosi := value }
  | p, [], _ => ⟨p.mosi, rfl⟩
  | p, bit :: bits, hclk => by
    obtain ⟨clk, mosi, chipSelects⟩ := p
    obtain rfl : clk = false := hclk
    obtain ⟨value, hreplay⟩ := replay_bitsCalls halfPeriod
      (p := ⟨false, bit.1, chipSelects⟩) bits rfl
    refine ⟨value, ?_⟩
    rw [bitsCalls_cons, Pins.replay_append, replay_bitCalls, hreplay]

/-- A transfer that finds the clock low leaves it low, and its device deselected. -/
theorem replay_transferCalls {p : Pins} (hclk : p.clk = false) (device : Nat) (period : Duration)
    (bits : List (Bool × Bool)) :
    ∃ value, p.replay (transferCalls device period bits) =
      { p with mosi := value, chipSelects := Function.update p.chipSelects device true } := by
  obtain ⟨value, hreplay⟩ := replay_bitsCalls (period / 2)
    (p := { p with chipSelects := Function.update p.chipSelects device false }) bits hclk
  refine ⟨value, ?_⟩
  simp [transferCalls, Pins.after, hreplay]

/-- A transfer leaves a bus at rest as it found it. -/
theorem rests_of_transfer {b b' : Bus} (hb : Rests b) {device : Nat} {period : Duration}
    {bits : List (Bool × Bool)}
    (hpins : Pins.ofBus b' = (Pins.ofBus b).replay (transferCalls device period bits))
    (hpoisoned : b'.poisoned = b.poisoned) : Rests b' := by
  obtain ⟨value, hreplay⟩ :=
    replay_transferCalls (p := Pins.ofBus b) hb.pinClk device period bits
  rw [hreplay] at hpins
  have hclk : b'.pinClk = b.pinClk := congrArg Pins.clk hpins
  have hselects : b'.chipSelects = Function.update b.chipSelects device true :=
    congrArg Pins.chipSelects hpins
  refine ⟨hclk.trans hb.pinClk, fun device' => ?_, hpoisoned.trans hb.poisoned⟩
  rw [hselects]
  by_cases hd : device' = device
  · simp [hd]
  · simp [hd, hb.chipSelects device']

/-! ## 4. The edges of a transfer -/

theorem edges_bitCalls {p : Pins} (hclk : p.clk = false) (halfPeriod : Duration)
    (value level : Bool) (rest : List (Call PinOp.Ans)) :
    edges p (bitCalls halfPeriod value level ++ rest) =
      ⟨{ p with mosi := value }, [level]⟩ :: edges { p with mosi := value } rest := by
  obtain ⟨clk, mosi, chipSelects⟩ := p
  obtain rfl : clk = false := hclk
  simp [bitCalls, edges, Pins.after, samples]

/-- **One edge for each bit**, at the level of MOSI it sends and with the level it samples. -/
theorem edges_bitsCalls (halfPeriod : Duration) (rest : List (Call PinOp.Ans)) :
    ∀ {p : Pins} (bits : List (Bool × Bool)), p.clk = false →
      ∃ value, edges p (bitsCalls halfPeriod bits ++ rest) =
        bits.map (fun bit => ⟨{ p with mosi := bit.1 }, [bit.2]⟩) ++
          edges { p with mosi := value } rest
  | p, [], _ => ⟨p.mosi, rfl⟩
  | p, bit :: bits, hclk => by
    obtain ⟨value, hedges⟩ :=
      edges_bitsCalls halfPeriod rest (p := { p with mosi := bit.1 }) bits hclk
    refine ⟨value, ?_⟩
    rw [bitsCalls_cons, List.append_assoc, edges_bitCalls hclk, hedges]
    rfl

/-- The edges of a transfer come while its device is selected. -/
theorem edges_transferCalls {p : Pins} (hclk : p.clk = false) (device : Nat) (period : Duration)
    (bits : List (Bool × Bool)) :
    edges p (transferCalls device period bits) = bits.map fun bit =>
      ⟨⟨false, bit.1, Function.update p.chipSelects device false⟩, [bit.2]⟩ := by
  obtain ⟨clk, mosi, chipSelects⟩ := p
  obtain rfl : clk = false := hclk
  obtain ⟨value, hedges⟩ := edges_bitsCalls (period / 2)
    [⟨.select device true, some (.ok ())⟩, ⟨.unlock, some ()⟩]
    (p := ⟨false, mosi, Function.update chipSelects device false⟩) bits rfl
  simp [transferCalls, edges, Pins.after, hedges]

/-! ## 5. Bits and numbers -/

/-- The number with these binary digits, first the most significant one. -/
def ofBits (levels : List Bool) : Nat := Nat.ofDigits 2 (levels.reverse.map Bool.toNat)

theorem ofBits_append (levels levels' : List Bool) :
    ofBits (levels ++ levels') = ofBits levels * 2 ^ levels'.length + ofBits levels' := by
  simp [ofBits, Nat.ofDigits_append]
  ring

theorem ofBits_lt (levels : List Bool) : ofBits levels < 2 ^ levels.length := by
  refine (Nat.ofDigits_lt_base_pow_length (by norm_num) ?_).trans_eq (by simp)
  intro digit hdigit
  obtain ⟨level, -, rfl⟩ := List.mem_map.mp hdigit
  exact Bool.toNat_lt level

/-- What a read uses of a byte that was received. -/
theorem byteOf_bits : ∀ b₇ b₆ b₅ b₄ b₃ b₂ b₁ b₀ : Bool,
    (byteOf 0 [b₇, b₆, b₅, b₄, b₃, b₂, b₁, b₀]).toNat = ofBits [b₇, b₆, b₅, b₄, b₃, b₂, b₁, b₀] ∧
      (byteOf 0 [b₇, b₆, b₅, b₄, b₃, b₂, b₁, b₀] &&& 0x0F).toNat = ofBits [b₃, b₂, b₁, b₀] ∧
      (byteOf 0 [b₇, b₆, b₅, b₄, b₃, b₂, b₁, b₀] &&& 0x10 ≠ 0 ↔ b₄ = true) := by
  decide +kernel

theorem toNat_fromBeBytes (high low : UInt8) :
    (fromBeBytes high low).toNat = high.toNat * 2 ^ 8 + low.toNat := by
  have hlow := low.toNat_lt
  have hhigh := high.toNat_lt
  have hshift : high.toNat <<< 8 < 2 ^ 16 := by
    rw [Nat.shiftLeft_eq]
    omega
  simp only [fromBeBytes, UInt16.toNat_or, UInt16.toNat_shiftLeft, UInt8.toNat_toUInt16]
  rw [show (8 : UInt16).toNat % 16 = 8 from rfl, Nat.mod_eq_of_lt hshift,
    ← Nat.shiftLeft_add_eq_or_of_lt hlow, Nat.shiftLeft_eq]

/-- What a read sends: five zeros, the start bit, the single-ended bit, the three bits of the
channel, and zeros. -/
def command (channel : UInt8) : List Bool :=
  List.replicate 5 false ++ [true, true] ++
    [channel.toNat.testBit 2, channel.toNat.testBit 1, channel.toNat.testBit 0] ++
    List.replicate 14 false

theorem bitsOut_command {channel : UInt8} (hchannel : channel < 8) :
    bitsOut ((0x6 : UInt8) ||| (channel >>> 2)) ++ bitsOut ((channel &&& 0x3) <<< 6) ++ bitsOut 0 =
      command channel := by
  obtain ⟨n, hn, rfl⟩ : ∃ n < 8, channel = UInt8.ofNat n := ⟨channel.toNat, hchannel, by simp⟩
  interval_cases n
  all_goals rfl

theorem exists_bits {levels : List Bool} (h : levels.length = 8) :
    ∃ b₇ b₆ b₅ b₄ b₃ b₂ b₁ b₀, levels = [b₇, b₆, b₅, b₄, b₃, b₂, b₁, b₀] := by
  match levels, h with
  | [b₇, b₆, b₅, b₄, b₃, b₂, b₁, b₀], _ => exact ⟨b₇, b₆, b₅, b₄, b₃, b₂, b₁, b₀, rfl⟩

/-! ## 6. The reads -/

/-- What a read makes of the levels it has sampled. -/
structure Answers (levels : List Bool) (r : Except Error UInt16) : Prop where
  fails : (∃ e, r = .error e) ↔ levels[11]? = some true
  value : ∀ value, r = .ok value → value.toNat < 4096 ∧ value.toNat = ofBits (levels.drop 12)

/-- **A read keeps to the protocol of the chip.**  There are twenty-four rising edges, all with
just its device selected; MOSI sends the command at them; one level is sampled after each, and the
result is the one these levels give. -/
structure ReadFaithful (device : Nat) (channel : UInt8) (p : Pins) (h : List (Call PinOp.Ans))
    (r : Except Error UInt16) : Prop where
  count : (edges p h).length = 24
  selected : ∀ edge ∈ edges p h, ∀ device',
    edge.pins.chipSelects device' = false ↔ device' = device
  mosi : (edges p h).map (fun edge => edge.pins.mosi) = command channel
  sampled : ∃ levels : List Bool,
    (edges p h).map (fun edge => edge.samples) = levels.map (fun level => [level]) ∧
      Answers levels r

/-- Every one of these reads does, on the pins the reads before it have left. -/
inductive ReadsFaithful :
    Pins → List (Nat × UInt8) → List (Except Error UInt16) → List (Call PinOp.Ans) → Prop
  | nil (p : Pins) : ReadsFaithful p [] [] []
  | cons {p : Pins} {device : Nat} {channel : UInt8} {r : Except Error UInt16}
      {h h' : List (Call PinOp.Ans)} {reads : List (Nat × UInt8)}
      {rs : List (Except Error UInt16)} :
      ReadFaithful device channel p h r → ReadsFaithful (p.replay h) reads rs h' →
        ReadsFaithful p ((device, channel) :: reads) (r :: rs) (h ++ h')

/-- The result of a read, from the bytes it has received. -/
theorem answers_of_bytes {l₀ l₁ l₂ : List Bool} (h₀ : l₀.length = 8) (h₁ : l₁.length = 8)
    (h₂ : l₂.length = 8) :
    Answers (l₀ ++ l₁ ++ l₂)
      (if byteOf 0 l₁ &&& 0x10 ≠ 0 then .error (.hardware noNullBit)
        else .ok (fromBeBytes (byteOf 0 l₁ &&& 0x0F) (byteOf 0 l₂))) := by
  obtain ⟨b₇, b₆, b₅, b₄, b₃, b₂, b₁, b₀, rfl⟩ := exists_bits h₁
  obtain ⟨c₇, c₆, c₅, c₄, c₃, c₂, c₁, c₀, rfl⟩ := exists_bits h₂
  obtain ⟨-, hmask, hnull⟩ := byteOf_bits b₇ b₆ b₅ b₄ b₃ b₂ b₁ b₀
  obtain ⟨hlow, -, -⟩ := byteOf_bits c₇ c₆ c₅ c₄ c₃ c₂ c₁ c₀
  have hlevel : (l₀ ++ [b₇, b₆, b₅, b₄, b₃, b₂, b₁, b₀] ++
      [c₇, c₆, c₅, c₄, c₃, c₂, c₁, c₀])[11]? = some b₄ := by
    rw [List.append_assoc, List.getElem?_append_right (by omega), h₀]
    rfl
  have hdrop : (l₀ ++ [b₇, b₆, b₅, b₄, b₃, b₂, b₁, b₀] ++
      [c₇, c₆, c₅, c₄, c₃, c₂, c₁, c₀]).drop 12 =
        [b₃, b₂, b₁, b₀] ++ [c₇, c₆, c₅, c₄, c₃, c₂, c₁, c₀] := by
    rw [List.append_assoc, show 12 = l₀.length + 4 by omega, List.drop_length_add_append]
    rfl
  constructor
  · rw [hlevel, Option.some.injEq, ← hnull]
    split
    · rename_i hne
      simp [hne]
    · rename_i heq
      simp [heq]
  · intro value hvalue
    split at hvalue
    · cases hvalue
    obtain rfl := Except.ok.inj hvalue
    have heq : (fromBeBytes (byteOf 0 [b₇, b₆, b₅, b₄, b₃, b₂, b₁, b₀] &&& 0x0F)
        (byteOf 0 [c₇, c₆, c₅, c₄, c₃, c₂, c₁, c₀])).toNat =
          ofBits ([b₃, b₂, b₁, b₀] ++ [c₇, c₆, c₅, c₄, c₃, c₂, c₁, c₀]) := by
      rw [toNat_fromBeBytes, hmask, hlow, ofBits_append, h₂]
    have hlt : ofBits ([b₃, b₂, b₁, b₀] ++ [c₇, c₆, c₅, c₄, c₃, c₂, c₁, c₀]) < 2 ^ 12 :=
      ofBits_lt _
    rw [hdrop, heq]
    exact ⟨by simpa using hlt, rfl⟩

theorem length_command (channel : UInt8) : (command channel).length = 24 := rfl

theorem bufferBits_command {channel : UInt8} (hchannel : channel < 8) {l₀ l₁ : List Bool}
    (h₀ : l₀.length = 8) (h₁ : l₁.length = 8) (l₂ : List Bool) :
    bufferBits [((0x6 : UInt8) ||| (channel >>> 2), 0), ((channel &&& 0x3) <<< 6, 0), (0, 0)] [l₀, l₁, l₂] =
      (command channel).zip (l₀ ++ l₁ ++ l₂) := by
  rw [← bitsOut_command hchannel, List.zip_append (by simp [bitsOut, bitIndices, h₀, h₁]),
    List.zip_append (by simp [bitsOut, bitIndices, h₀])]
  simp [bufferBits]

/-- The edges of a read's transfer are as the protocol wants them. -/
theorem readFaithful_of_transfer (device : Nat) (channel : UInt8) {b : Bus} (hb : Rests b)
    {levels : List Bool} (hlen : levels.length = 24) {r : Except Error UInt16}
    (hr : Answers levels r) :
    ReadFaithful device channel (Pins.ofBus b)
      (transferCalls device b.period ((command channel).zip levels)) r := by
  have hlengths : (command channel).length = levels.length := by rw [length_command, hlen]
  have hedges := edges_transferCalls (p := Pins.ofBus b) hb.pinClk device b.period
    ((command channel).zip levels)
  constructor
  · simp [hedges, length_command, hlen]
  · intro edge hedge device'
    rw [hedges] at hedge
    obtain ⟨bit, -, rfl⟩ := List.mem_map.mp hedge
    by_cases hd : device' = device
    · simp [hd]
    · simp [hd, Pins.ofBus, hb.chipSelects device']
  · rw [hedges, List.map_map]
    exact List.map_fst_zip hlengths.le
  · refine ⟨levels, ?_, hr⟩
    rw [hedges, List.map_map]
    calc
      ((command channel).zip levels).map (fun bit => [bit.2])
          = (((command channel).zip levels).map Prod.snd).map (fun level => [level]) := by simp
      _ = levels.map (fun level => [level]) := by rw [List.map_snd_zip hlengths.ge]

/-- **One read.** -/
theorem spec_read (device : Nat) {channel : UInt8} (hchannel : channel < 8) {b : Bus}
    (hb : Rests b) :
    Spec machine Works (read device channel).run b fun r h b' =>
      ReadFaithful device channel (Pins.ofBus b) h r ∧ Rests b' := by
  unfold read
  rw [if_neg (by rw [UInt8.not_le]; exact hchannel)]
  have hlengths : [(0x6 : UInt8) ||| (channel >>> 2), (channel &&& 0x3) <<< 6, 0].length =
      [(0 : UInt8), 0, 0].length := rfl
  refine Spec.bind (f := Fallible.onOk _)
    (Spec.mono (spec_replay (spec_transfer device hlengths hb.poisoned)) ?_)
  rintro _ _ b' ⟨⟨_, rfl, levels, hlen, height, rfl, rfl⟩, hpins, hpoisoned⟩
  have hb' := rests_of_transfer hb hpins hpoisoned
  obtain ⟨l₀, l₁, l₂, rfl⟩ := List.length_eq_three.mp hlen
  simp only [List.forall_mem_cons] at height
  obtain ⟨h₀, h₁, h₂, -⟩ := height
  have hanswers := answers_of_bytes h₀ h₁ h₂
  have hbits := bufferBits_command hchannel h₀ h₁ l₂
  have hfaithful := readFaithful_of_transfer device channel hb (by simp [h₀, h₁, h₂]) hanswers
  rw [← hbits] at hfaithful
  show Spec machine Works (show SpiProc UInt16 from
    if byteOf 0 l₁ &&& 0x10 ≠ 0 then throw (.hardware noNullBit)
    else pure (fromBeBytes (byteOf 0 l₁ &&& 0x0F) (byteOf 0 l₂))).run b' _
  split
  · rename_i hnull
    rw [if_pos hnull] at hfaithful
    exact Spec.ret ⟨by simpa using hfaithful, hb'⟩
  · rename_i hnull
    rw [if_neg hnull] at hfaithful
    exact Spec.ret ⟨by simpa using hfaithful, hb'⟩

/-- **ADC reads are faithful**: from a bus at rest whose pins do not fail, for every sequence of
reads of channels in range and all levels of MISO, each read keeps to the protocol of the chip and
its result depends on the levels it has sampled itself. -/
theorem reads_faithful : ∀ (reads : List (Nat × UInt8)) (b : Bus), Rests b →
    (∀ r ∈ reads, r.2 < 8) →
      Spec machine Works (readAll reads) b fun rs h _ => ReadsFaithful (Pins.ofBus b) reads rs h
  | [], b, _, _ => Spec.ret (.nil _)
  | (device, channel) :: reads, b, hb, hreads => by
    rw [List.forall_mem_cons] at hreads
    obtain ⟨hchannel, hreads⟩ := hreads
    refine Spec.bind ((spec_replay (spec_read device hchannel hb)).mono ?_)
    rintro r h b' ⟨⟨hread, hb'⟩, hpins, -⟩
    refine Spec.bind ((reads_faithful reads b' hb' hreads).mono ?_)
    intro rs h' b'' hfaithful
    rw [hpins] at hfaithful
    exact Spec.ret (by simpa using ReadsFaithful.cons hread hfaithful)

theorem two_reads_faithful :
    Rests (Bus.atRest 1000) ∧ Spec machine Works (readAll [(0, 0), (1, 5)]) (Bus.atRest 1000)
      fun rs h _ => ReadsFaithful (Pins.ofBus (Bus.atRest 1000)) [(0, 0), (1, 5)] rs h :=
  ⟨⟨rfl, fun _ => rfl, rfl⟩,
    reads_faithful [(0, 0), (1, 5)] (Bus.atRest 1000) ⟨rfl, fun _ => rfl, rfl⟩ (by simp)⟩

/-- The levels of the source's own test, read on channel 0. -/
example : (eval machine (read 0 0).run (fun n => ⟨false, false,
    [true, true, true, true, true, true, true, true, true, true, true, false, true, false, true,
      false, true, false, false, true, false, false, true, false].getD ((n - 5) / 6) false⟩)
    (Bus.atRest 1000)).outcome = .returned (.ok 2706) := by
  decide +kernel

end Mcp3208

end Slonk
