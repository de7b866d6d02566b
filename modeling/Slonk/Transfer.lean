/-
# What a transfer sends and receives

`hardware/spi.rs`: `Device::transfer` clocks a buffer out over MOSI and samples MISO meanwhile.
Both halves are said of the calls it makes at the pins (`Adc.lean` has the replay of them).

* The send side is as it should be: `transfer_sends` gives the trace at the pins, the number of
  pulses, that MOSI is steady while the clock is high, and that the levels at the rising edges
  decode to the outgoing buffer.
* The receive side has a gap.  The documentation says that `incoming` is *populated* with the bytes
  from the device, and the loop only ever sets bits in it (`*byte_in |= ..`): what was in the
  buffer before shows through.  `transfer_receives_iff` says exactly where.
-/
import Slonk.Adc

namespace Slonk

open Concurrency

namespace Spi

open Mcp3208

/-! ## 1. Bytes and bits -/

/-- The bits of a byte, first the most significant one. -/
def bits (byte : UInt8) : List Bool := (List.range 8).map fun i => byte.toNat.testBit (7 - i)

/-- The bytes that these bits are, in groups of eight, each from its most significant bit. -/
def decodeBytes : List Bool → List UInt8
  | b₇ :: b₆ :: b₅ :: b₄ :: b₃ :: b₂ :: b₁ :: b₀ :: rest =>
    UInt8.ofNat (ofBits [b₇, b₆, b₅, b₄, b₃, b₂, b₁, b₀]) :: decodeBytes rest
  | _ => []

@[simp] theorem length_bits (byte : UInt8) : (bits byte).length = 8 := rfl

/-- What the masks and shifts of the source send of a byte are its bits. -/
theorem bitsOut_eq (byte : UInt8) : bitsOut byte = bits byte := by
  obtain ⟨n, hn, rfl⟩ : ∃ n < 256, byte = UInt8.ofNat n := ⟨byte.toNat, byte.toNat_lt, by simp⟩
  revert n
  decide +kernel

theorem ofBits_cons (level : Bool) (levels : List Bool) :
    ofBits (level :: levels) = level.toNat * 2 ^ levels.length + ofBits levels := by
  have hone : ofBits [level] = level.toNat := by simp [ofBits]
  rw [← hone]
  exact ofBits_append [level] levels

/-- The binary digits of a number, as many as fit, are its remainder. -/
theorem ofBits_testBit (n : Nat) : ∀ width : Nat,
    ofBits ((List.range width).map fun i => n.testBit (width - 1 - i)) = n % 2 ^ width
  | 0 => by simp [ofBits, Nat.mod_one]
  | width + 1 => by
    -- the first digit is the most significant one
    have hdigits : ((List.range (width + 1)).map fun i => n.testBit (width + 1 - 1 - i)) =
        n.testBit width :: (List.range width).map fun i => n.testBit (width - 1 - i) := by
      rw [List.range_succ_eq_map, List.map_cons, List.map_map]
      congr 1
      refine List.map_congr_left fun i _ => ?_
      exact congrArg n.testBit (by simp; omega)
    rw [hdigits, ofBits_cons, ofBits_testBit n width, List.length_map, List.length_range,
      Nat.mod_pow_succ, Nat.toNat_testBit]
    ring

/-- A byte is the number that its bits are. -/
theorem ofBits_bits (byte : UInt8) : UInt8.ofNat (ofBits (bits byte)) = byte := by
  have hbyte : ofBits (bits byte) = byte.toNat :=
    (ofBits_testBit byte.toNat 8).trans (Nat.mod_eq_of_lt byte.toNat_lt)
  rw [hbyte, UInt8.ofNat_toNat]

/-- Groups of eight. -/
theorem length_flatten {levels : List (List Bool)} (h : ∀ l ∈ levels, l.length = 8) :
    levels.flatten.length = 8 * levels.length := by
  rw [List.length_flatten, List.map_congr_left h, List.map_const', List.sum_replicate, smul_eq_mul,
    Nat.mul_comm]

theorem length_flatMap_bits (bytes : List UInt8) :
    (bytes.flatMap bits).length = 8 * bytes.length := by
  rw [List.flatMap_def, length_flatten (by simp), List.length_map]

theorem decodeBytes_append {levels : List Bool} (h : levels.length = 8) (rest : List Bool) :
    decodeBytes (levels ++ rest) = UInt8.ofNat (ofBits levels) :: decodeBytes rest := by
  obtain ⟨b₇, b₆, b₅, b₄, b₃, b₂, b₁, b₀, rfl⟩ := exists_bits h
  rfl

/-- Groups of eight decode one by one. -/
theorem decodeBytes_flatten : ∀ levels : List (List Bool), (∀ l ∈ levels, l.length = 8) →
    decodeBytes levels.flatten = levels.map fun l => UInt8.ofNat (ofBits l)
  | [], _ => rfl
  | l :: levels, h => by
    rw [List.forall_mem_cons] at h
    rw [List.flatten_cons, decodeBytes_append h.1, decodeBytes_flatten levels h.2, List.map_cons]

/-- **The round trip**: the bits of a buffer decode to it. -/
theorem decodeBytes_bits (bytes : List UInt8) : decodeBytes (bytes.flatMap bits) = bytes := by
  have hlengths : ∀ l ∈ bytes.map bits, l.length = 8 := by simp
  rw [List.flatMap_def, decodeBytes_flatten _ hlengths, List.map_map]
  conv_rhs => rw [← List.map_id bytes]
  exact List.map_congr_left fun byte _ => ofBits_bits byte

/-! ## 2. What is sent -/

/-- It writes or reads a pin. -/
def PinOp.isPin : PinOp → Bool
  | select _ _ | mosi _ | clk _ | miso => true
  | lock _ | unlock | sleep _ => false

/-- The pin events among these calls. -/
def pinEvents (h : List (Call PinOp.Ans)) : List (Call PinOp.Ans) := h.filter (·.op.isPin)

/-- The pin events of a bit: MOSI is set, the clock goes high, MISO is sampled, the clock goes
low. -/
def pulse (value level : Bool) : List (Call PinOp.Ans) :=
  [⟨.mosi value, some (.ok ())⟩, ⟨.clk true, some (.ok ())⟩, ⟨.miso, some (.ok level)⟩,
    ⟨.clk false, some (.ok ())⟩]

/-- MOSI does not change while the clock is high. -/
def Steady (p : Pins) (h : List (Call PinOp.Ans)) : Prop :=
  ∀ h₁ c h₂, h = h₁ ++ c :: h₂ → (p.replay h₁).clk = true →
    ((p.replay h₁).after c).mosi = (p.replay h₁).mosi

/-- **A transfer sends its outgoing buffer**, from these levels of the pins: its pin events are the
chip select going low, a pulse for each bit in turn, and the chip select going high.  So there are
eight pulses for each byte, complete ones, MOSI is steady during each, and what a device reads at
their rising edges is the buffer. -/
structure Sends (device : Nat) (outgoing : List UInt8) (p : Pins) (h : List (Call PinOp.Ans)) :
    Prop where
  trace : ∃ levels : List Bool, levels.length = 8 * outgoing.length ∧
    pinEvents h = ⟨.select device false, some (.ok ())⟩ ::
      (((outgoing.flatMap bits).zip levels).flatMap fun bit => pulse bit.1 bit.2) ++
        [⟨.select device true, some (.ok ())⟩]
  pulses : (edges p h).length = 8 * outgoing.length
  complete : (p.replay h).clk = false
  steady : Steady p h
  decoded : decodeBytes ((edges p h).map (·.pins.mosi)) = outgoing

theorem pinEvents_append (h h' : List (Call PinOp.Ans)) :
    pinEvents (h ++ h') = pinEvents h ++ pinEvents h' := List.filter_append h h'

theorem pinEvents_bitsCalls (halfPeriod : Duration) (bits : List (Bool × Bool)) :
    pinEvents (bitsCalls halfPeriod bits) = bits.flatMap fun bit => pulse bit.1 bit.2 := by
  induction bits with
  | nil => rfl
  | cons bit bits ih =>
    rw [bitsCalls_cons, List.flatMap_cons, ← ih]
    rfl

theorem pinEvents_transferCalls (device : Nat) (period : Duration) (bits : List (Bool × Bool)) :
    pinEvents (transferCalls device period bits) = ⟨.select device false, some (.ok ())⟩ ::
      (bits.flatMap fun bit => pulse bit.1 bit.2) ++
        [⟨.select device true, some (.ok ())⟩] := by
  have hevents : pinEvents (transferCalls device period bits) =
      ⟨.select device false, some (.ok ())⟩ :: pinEvents (bitsCalls (period / 2) bits ++
        [⟨.select device true, some (.ok ())⟩, ⟨.unlock, some ()⟩]) := rfl
  rw [hevents, pinEvents_append, pinEvents_bitsCalls]
  rfl

@[simp] theorem steady_nil (p : Pins) : Steady p [] := by
  intro h₁ c h₂ h
  simp at h

@[simp] theorem steady_cons {p : Pins} {c : Call PinOp.Ans} {h : List (Call PinOp.Ans)} :
    Steady p (c :: h) ↔ (p.clk = true → (p.after c).mosi = p.mosi) ∧ Steady (p.after c) h := by
  constructor
  · intro hs
    refine ⟨hs [] c h rfl, fun h₁ c' h₂ heq => hs (c :: h₁) c' h₂ ?_⟩
    rw [heq, List.cons_append]
  · rintro ⟨hc, hs⟩ h₁ c' h₂ heq
    cases h₁ with
    | nil =>
      obtain ⟨rfl, rfl⟩ := List.cons.inj heq
      exact hc
    | cons c₁ h₁ =>
      obtain ⟨rfl, rfl⟩ := List.cons.inj heq
      exact hs h₁ c' h₂ rfl

theorem steady_append {h h' : List (Call PinOp.Ans)} :
    ∀ {p : Pins}, Steady p (h ++ h') ↔ Steady p h ∧ Steady (p.replay h) h' := by
  induction h with
  | nil => simp
  | cons c h ih =>
    intro p
    simp [ih, and_assoc]

/-- Of a bit, which finds the clock low. -/
theorem steady_bitCalls {p : Pins} (hclk : p.clk = false) (halfPeriod : Duration)
    (value level : Bool) : Steady p (bitCalls halfPeriod value level) := by
  simp [bitCalls, Pins.after, hclk]

theorem steady_bitsCalls (halfPeriod : Duration) :
    ∀ {p : Pins} (bits : List (Bool × Bool)), p.clk = false → Steady p (bitsCalls halfPeriod bits)
  | p, [], _ => steady_nil p
  | p, bit :: bits, hclk => by
    rw [bitsCalls_cons, steady_append, replay_bitCalls]
    exact ⟨steady_bitCalls hclk _ _ _, steady_bitsCalls halfPeriod bits rfl⟩

theorem steady_transferCalls {p : Pins} (hclk : p.clk = false) (device : Nat) (period : Duration)
    (bits : List (Bool × Bool)) : Steady p (transferCalls device period bits) := by
  simp [transferCalls, Pins.after, hclk, steady_append, steady_bitsCalls]

/-- The bits of a transfer are those of its outgoing buffer. -/
theorem bufferBits_eq : ∀ {outgoing incoming : List UInt8} {levels : List (List Bool)},
    outgoing.length = incoming.length → levels.length = incoming.length →
      (∀ l ∈ levels, l.length = 8) →
      bufferBits (outgoing.zip incoming) levels = (outgoing.flatMap bits).zip levels.flatten
  | [], [], levels, _, _, _ => by simp [bufferBits]
  | byteOut :: outgoing, byteIn :: incoming, l :: levels, hlen, hlevels, height => by
    rw [List.forall_mem_cons] at height
    have ih := bufferBits_eq (Nat.succ.inj hlen) (Nat.succ.inj hlevels) height.2
    unfold bufferBits at ih ⊢
    rw [List.flatMap_cons, List.flatten_cons, List.zip_append (by simp [height.1]), ← ih,
      ← bitsOut_eq]
    rfl

/-- **A transfer**, by the bits of its outgoing buffer and the levels it samples. -/
theorem spec_transfer_bits (device : Nat) {outgoing incoming : List UInt8}
    (hlen : outgoing.length = incoming.length) {b : Bus} (hb : b.poisoned = false) :
    (transfer device outgoing incoming).Succeeds machine Works b fun r h _ =>
      ∃ levels : List (List Bool), levels.length = incoming.length ∧
        (∀ l ∈ levels, l.length = 8) ∧ r = List.zipWith byteOf incoming levels ∧
        h = transferCalls device b.period ((outgoing.flatMap bits).zip levels.flatten) := by
  refine (spec_transfer device hlen hb).mono ?_
  rintro _ _ _ ⟨levels, hlevels, height, rfl, rfl⟩
  rw [List.length_zip, hlen, Nat.min_self] at hlevels
  refine ⟨levels, hlevels, height, ?_, by rw [bufferBits_eq hlen hlevels height]⟩
  rw [List.map_zip_eq_zipWith]
  conv_rhs => rw [← List.map_snd_zip hlen.ge, List.zipWith_map_left]
  rfl

/-- **The send side.**  From a bus whose clock is low, with pins that do not fail and whatever MISO
does, a transfer returns, and it has sent its outgoing buffer. -/
theorem transfer_sends (device : Nat) (outgoing incoming : List UInt8)
    (hlen : outgoing.length = incoming.length) {b : Bus} (hclk : b.pinClk = false)
    (hpoisoned : b.poisoned = false) :
    Spec machine Works (transfer device outgoing incoming).run b fun r h _ =>
      (∃ bytes, r = .ok bytes) ∧ Sends device outgoing (Pins.ofBus b) h := by
  refine Spec.mono (spec_transfer_bits device hlen hpoisoned) ?_
  rintro _ _ _ ⟨bytes, rfl, levels, hlevels, height, -, rfl⟩
  have hsampled : levels.flatten.length = 8 * outgoing.length := by
    rw [length_flatten height, hlevels, hlen]
  have hsent : (outgoing.flatMap bits).length = 8 * outgoing.length := length_flatMap_bits outgoing
  have hedges := edges_transferCalls (p := Pins.ofBus b) hclk device b.period
    ((outgoing.flatMap bits).zip levels.flatten)
  obtain ⟨value, hreplay⟩ := replay_transferCalls (p := Pins.ofBus b) hclk device b.period
    ((outgoing.flatMap bits).zip levels.flatten)
  refine ⟨⟨bytes, rfl⟩, ?_, ?_, ?_, steady_transferCalls hclk _ _ _, ?_⟩
  · exact ⟨levels.flatten, hsampled, pinEvents_transferCalls _ _ _⟩
  · rw [hedges, List.length_map, List.length_zip, hsampled, hsent, Nat.min_self]
  · rw [hreplay]
    exact hclk
  · rw [hedges, List.map_map]
    have hmosi : ((outgoing.flatMap bits).zip levels.flatten).map Prod.fst
        = outgoing.flatMap bits := List.map_fst_zip (hsent.trans hsampled.symm).le
    exact (congrArg decodeBytes hmosi).trans (decodeBytes_bits outgoing)

/-- Two bytes, to a device that answers nothing. -/
theorem two_bytes_sent :
    Spec machine Works (transfer 0 [0xAC, 0x01] [0, 0]).run (Bus.atRest 1000) fun r h _ =>
      (∃ bytes, r = .ok bytes) ∧ Sends 0 [0xAC, 0x01] (Pins.ofBus (Bus.atRest 1000)) h :=
  transfer_sends 0 [0xAC, 0x01] [0, 0] rfl rfl rfl

/-! ## 3. What is received -/

/-- The levels sampled at each pulse of the clock, from the write that makes it high to the next
write. -/
def pulses : List (Call PinOp.Ans) → List (List Bool)
  | ⟨.clk true, some (.ok _)⟩ :: rest => samples rest :: pulses rest
  | _ :: rest => pulses rest
  | [] => []

/-- The levels sampled at the pulses, one after the other. -/
def sampled (h : List (Call PinOp.Ans)) : List Bool := (pulses h).flatten

/-- **The buffer is what was sampled**: one level at each pulse, eight pulses for each byte, and the
bytes are these levels in groups of eight. -/
structure Received (bytes : List UInt8) (h : List (Call PinOp.Ans)) : Prop where
  once : ∀ levels ∈ pulses h, levels.length = 1
  pulses : (pulses h).length = 8 * bytes.length
  decoded : bytes = decodeBytes (sampled h)

/-- Every bit that is set in these bytes was sampled high. -/
def Covered (prior : List UInt8) (h : List (Call PinOp.Ans)) : Prop :=
  List.Forall₂ (fun byte received => byte ||| received = received) prior (decodeBytes (sampled h))

theorem pulses_bitsCalls (halfPeriod : Duration) (rest : List (Call PinOp.Ans))
    (bits : List (Bool × Bool)) : pulses (bitsCalls halfPeriod bits ++ rest) =
      bits.map (fun bit => [bit.2]) ++ pulses rest := by
  induction bits with
  | nil => rfl
  | cons bit bits ih =>
    rw [bitsCalls_cons, List.append_assoc, List.map_cons, List.cons_append, ← ih]
    simp [bitCalls, pulses, samples]

theorem pulses_transferCalls (device : Nat) (period : Duration) (bits : List (Bool × Bool)) :
    pulses (transferCalls device period bits) = bits.map fun bit => [bit.2] := by
  simp [transferCalls, pulses, pulses_bitsCalls]

/-- **A byte is built in place**: the bits sampled are set in what was there. -/
theorem byteOf_eq_or (byteIn : UInt8) {levels : List Bool} (h : levels.length = 8) :
    byteOf byteIn levels = byteIn ||| UInt8.ofNat (ofBits levels) := by
  obtain ⟨b₇, b₆, b₅, b₄, b₃, b₂, b₁, b₀, rfl⟩ := exists_bits h
  have hzero := (byteOf_bits b₇ b₆ b₅ b₄ b₃ b₂ b₁ b₀).1
  rw [← hzero, UInt8.ofNat_toNat]
  simp [byteOf, bitIndices, bitIn, UInt8.or_assoc]

/-- So a buffer is. -/
theorem zipWith_byteOf : ∀ (incoming : List UInt8) {levels : List (List Bool)},
    (∀ l ∈ levels, l.length = 8) → List.zipWith byteOf incoming levels =
      List.zipWith (· ||| ·) incoming (decodeBytes levels.flatten)
  | [], _, _ => rfl
  | _ :: _, [], _ => rfl
  | byteIn :: incoming, l :: levels, h => by
    rw [List.forall_mem_cons] at h
    rw [List.flatten_cons, decodeBytes_append h.1, List.zipWith_cons_cons, List.zipWith_cons_cons,
      byteOf_eq_or byteIn h.1, zipWith_byteOf incoming h.2]

/-- **What a transfer leaves in the buffer** is what was there, with the bits set that it has sampled
high. -/
theorem spec_transfer_received (device : Nat) {outgoing incoming : List UInt8}
    (hlen : outgoing.length = incoming.length) {b : Bus} (hb : b.poisoned = false) :
    (transfer device outgoing incoming).Succeeds machine Works b fun bytes h _ =>
      bytes = List.zipWith (· ||| ·) incoming (decodeBytes (sampled h)) ∧
        (decodeBytes (sampled h)).length = incoming.length ∧
        (pulses h).length = 8 * incoming.length ∧ ∀ levels ∈ pulses h, levels.length = 1 := by
  refine Spec.mono (spec_transfer_bits device hlen hb) ?_
  rintro _ _ _ ⟨bytes, rfl, levels, hlevels, height, rfl, rfl⟩
  have hsampled : levels.flatten.length = 8 * incoming.length := by
    rw [length_flatten height, hlevels]
  have hsent : (outgoing.flatMap bits).length = 8 * incoming.length := by
    rw [length_flatMap_bits, hlen]
  have hpulses : pulses (transferCalls device b.period
      ((outgoing.flatMap bits).zip levels.flatten)) = levels.flatten.map fun level => [level] := by
    rw [pulses_transferCalls]
    conv_rhs => rw [← List.map_snd_zip (hsampled.trans hsent.symm).le, List.map_map]
    rfl
  have hlevels' : sampled (transferCalls device b.period
      ((outgoing.flatMap bits).zip levels.flatten)) = levels.flatten := by
    rw [sampled, hpulses, ← List.flatMap_def, List.flatMap_singleton']
  refine ⟨_, rfl, ?_, ?_, ?_, ?_⟩
  · rw [hlevels', zipWith_byteOf incoming height]
  · rw [hlevels', decodeBytes_flatten _ height, List.length_map, hlevels]
  · rw [hpulses, List.length_map, hsampled]
  · rw [hpulses]
    intro levels' hmem
    obtain ⟨level, -, rfl⟩ := List.mem_map.mp hmem
    rfl

/-- Two bytes are the same under a third exactly if it covers the bits they differ in. -/
theorem or_eq_or_iff {x y z : UInt8} : x ||| z = y ||| z ↔ (x ^^^ y) ||| z = z := by
  simp only [← UInt8.toBitVec_inj, UInt8.toBitVec_or, UInt8.toBitVec_xor, BitVec.eq_of_getLsbD_eq_iff,
    BitVec.getLsbD_or, BitVec.getLsbD_xor]
  refine forall_congr' fun i => forall_congr' fun _ => ?_
  cases x.toBitVec.getLsbD i <;> cases y.toBitVec.getLsbD i <;> simp

/-- A buffer shows nothing of what was in it before exactly if all of that is covered. -/
theorem zipWith_or_eq_iff : ∀ {prior received : List UInt8}, received.length = prior.length →
    (List.zipWith (· ||| ·) prior received = received ↔
      List.Forall₂ (fun byte received => byte ||| received = received) prior received)
  | [], [], _ => by simp
  | byte :: prior, byte' :: received, h => by
    rw [List.zipWith_cons_cons, List.cons.injEq, List.forall₂_cons,
      zipWith_or_eq_iff (Nat.succ.inj h)]

/-- Two buffers show the same exactly if what they differ in is covered. -/
theorem zipWith_or_eq_zipWith_or_iff : ∀ {prior prior' received : List UInt8},
    received.length = prior.length → received.length = prior'.length →
      (List.zipWith (· ||| ·) prior received = List.zipWith (· ||| ·) prior' received ↔
        List.Forall₂ (fun byte received => byte ||| received = received)
          (List.zipWith (· ^^^ ·) prior prior') received)
  | [], [], [], _, _ => by simp
  | [], _ :: _, _, h, h' => absurd (h.symm.trans h') (by simp)
  | _ :: _, [], _, h, h' => absurd (h'.symm.trans h) (by simp)
  | byte :: prior, byte' :: prior', byte'' :: received, h, h' => by
    rw [List.zipWith_cons_cons, List.zipWith_cons_cons, List.zipWith_cons_cons, List.cons.injEq,
      List.forall₂_cons, or_eq_or_iff, zipWith_or_eq_zipWith_or_iff (Nat.succ.inj h)
      (Nat.succ.inj h')]

/-- **The receive side.**  After a transfer with pins that do not fail the buffer is what was sampled
exactly if the bits set in it before were all sampled high; and two transfers that sample the same
levels leave the same buffer exactly if the bits that their buffers differed in were. -/
theorem transfer_receives_iff (device device' : Nat)
    (outgoing incoming outgoing' incoming' : List UInt8)
    (hlen : outgoing.length = incoming.length) (hlen' : outgoing'.length = incoming'.length)
    {b b' : Bus} (hb : b.poisoned = false) (hb' : b'.poisoned = false) :
    Spec machine Works (transfer device outgoing incoming).run b fun r h _ =>
      Spec machine Works (transfer device' outgoing' incoming').run b' fun r' h' _ =>
        ∃ bytes bytes', r = .ok bytes ∧ r' = .ok bytes' ∧
          (Received bytes h ↔ Covered incoming h) ∧
          (sampled h = sampled h' → (bytes = bytes' ↔
            Covered (List.zipWith (· ^^^ ·) incoming incoming') h)) := by
  refine Spec.mono (spec_transfer_received device hlen hb) ?_
  rintro _ h _ ⟨bytes, rfl, rfl, hreceived, hpulses, honce⟩
  refine Spec.mono (spec_transfer_received device' hlen' hb') ?_
  rintro _ h' _ ⟨bytes', rfl, rfl, hreceived', -, -⟩
  refine ⟨_, _, rfl, rfl, ?_, fun hsame => ?_⟩
  · rw [Covered, ← zipWith_or_eq_iff hreceived]
    constructor
    · exact fun hreceives => hreceives.decoded
    · refine fun hdecoded => ⟨honce, ?_, hdecoded⟩
      rw [hpulses, hdecoded, hreceived]
  · rw [← hsame] at hreceived' ⊢
    exact zipWith_or_eq_zipWith_or_iff hreceived hreceived'

/-- The levels of two transfers into clear buffers. -/
theorem clear_buffers_receive :
    Spec machine Works (transfer 0 [0xAC] [0]).run (Bus.atRest 1000) fun r h _ =>
      Spec machine Works (transfer 1 [0x53] [0]).run (Bus.atRest 500) fun r' h' _ =>
        ∃ bytes bytes', r = .ok bytes ∧ r' = .ok bytes' ∧
          (Received bytes h ↔ Covered [0] h) ∧
          (sampled h = sampled h' → (bytes = bytes' ↔
            Covered (List.zipWith (· ^^^ ·) [0] [0]) h)) :=
  transfer_receives_iff 0 1 [0xAC] [0] [0x53] [0] rfl rfl rfl rfl

/-- What the outside world decides when every level of MISO is low. -/
def allLow : Nat → PinEnv := fun _ => ⟨false, false, false⟩

/-- **Stale bits remain**: a device that answers nothing but zeros leaves a buffer of ones as it
was, and one of zeros as well. -/
theorem stale_bits_remain :
    (¬ Spec machine Works (transfer 0 [0] [0xFF]).run (Bus.atRest 1000) fun r h _ =>
      ∃ bytes, r = .ok bytes ∧ Received bytes h) ∧
    ¬ Spec machine Works (transfer 0 [0] [0xFF]).run (Bus.atRest 1000) fun r h _ =>
      Spec machine Works (transfer 0 [0] [0]).run (Bus.atRest 1000) fun r' h' _ =>
        sampled h = sampled h' → r = r' := by
  have hones : (eval machine (transfer 0 [0] [0xFF]).run allLow (Bus.atRest 1000)).outcome
      = .returned (.ok [0xFF]) := by decide +kernel
  have hzeros : (eval machine (transfer 0 [0] [0]).run allLow (Bus.atRest 1000)).outcome
      = .returned (.ok [0]) := by decide +kernel
  constructor
  · intro h
    obtain ⟨r, hr, bytes, rfl, hreceived⟩ := h allLow fun _ => ⟨rfl, rfl⟩
    obtain rfl : [0xFF] = bytes := Except.ok.inj (Outcome.returned.inj (hones.symm.trans hr))
    exact absurd hreceived.decoded (by decide +kernel)
  · intro h
    obtain ⟨r, hr, h'⟩ := h allLow fun _ => ⟨rfl, rfl⟩
    obtain ⟨r', hr', heq⟩ := h' allLow fun _ => ⟨rfl, rfl⟩
    obtain rfl := heq (by decide +kernel)
    have hsame := Outcome.returned.inj (hones.symm.trans hr)
    have hsame' := Outcome.returned.inj (hzeros.symm.trans hr')
    exact absurd (hsame.trans hsame'.symm) (by decide)

end Spi

end Slonk
