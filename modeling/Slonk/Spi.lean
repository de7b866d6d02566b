/-
# The SPI bus

`hardware/spi.rs`: a bus of a clock, an outgoing and an incoming pin behind a mutex, the devices
on it, each with a chip-select pin of its own, and `Device::transfer`, which holds the mutex while
it moves a buffer out and a buffer in, bit by bit.

A pin operation is one operation here; so are taking the mutex and dropping its guard, so that a
transfer in progress can be told from none (`Bus.holder`).  Any pin operation may fail, and a write
that fails leaves the pin as it was.  Every failure leaves `transfer` at once, through the `?` of
the source: the guard is dropped, but the line that raises the chip select again is not reached.

Devices are numbered; `chipSelects` gives the level of each one's pin.
-/
import Slonk.Concurrency.Fallible
import Slonk.Config

namespace Slonk.Spi

open Concurrency

/-- `ControllerError`, as far as a transfer and an ADC read return it. -/
inductive Error
  | poison
  | gpio
  | hardware (message : String)
  deriving DecidableEq, Repr

/-! ## 1. The bus and its operations -/

/-- The bus, the chip-select pins of the devices on it, and the device whose transfer holds its
mutex.  A pin is at the level last written to it. -/
structure Bus where
  period : Duration
  pinClk : Bool
  pinMosi : Bool
  chipSelects : Nat → Bool
  holder : Option Nat
  poisoned : Bool

/-- A bus of this clock period at rest: nobody holds it, the clock is low and every chip select is
high. -/
def Bus.atRest (period : Duration) : Bus := ⟨period, false, false, fun _ => true, none, false⟩

/-- What the outside world decides when a pin is used. -/
structure PinEnv where
  selectFails : Bool
  pinFails : Bool
  miso : Bool
  deriving DecidableEq, Repr

/-- The operations of a transfer. -/
inductive PinOp
  /-- `self.bus.lock()?`, for the transfer of a device -/
  | lock (device : Nat)
  /-- `drop(bus_handle)`, at the end of the transfer -/
  | unlock
  /-- `self.pin_cs.write(value)?` -/
  | select (device : Nat) (value : Bool)
  /-- `bus_handle.pin_mosi.write(value)?` -/
  | mosi (value : Bool)
  /-- `bus_handle.pin_clk.write(value)?` -/
  | clk (value : Bool)
  /-- `bus_handle.pin_miso.read()?` -/
  | miso
  /-- `sleep(duration)` -/
  | sleep (duration : Duration)
  deriving DecidableEq, Repr

/-- What they answer.  With the mutex comes the clock period behind it. -/
@[reducible] def PinOp.Ans : PinOp → Type
  | lock _ => Except Error Duration
  | unlock => Unit
  | select _ _ | mosi _ | clk _ => Except Error Unit
  | miso => Except Error Bool
  | sleep _ => Unit

/-- The effect of one operation. -/
def exec : (o : PinOp) → PinEnv → Bus → Option o.Ans × Bus
  | .lock device, _, b =>
    if b.poisoned then (some (.error .poison), b)
    else (some (.ok b.period), { b with holder := some device })
  | .unlock, _, b => (some (), { b with holder := none })
  | .select device value, env, b =>
    if env.selectFails then (some (.error .gpio), b)
    else (some (.ok ()), { b with chipSelects := Function.update b.chipSelects device value })
  | .mosi value, env, b =>
    if env.pinFails then (some (.error .gpio), b) else (some (.ok ()), { b with pinMosi := value })
  | .clk value, env, b =>
    if env.pinFails then (some (.error .gpio), b) else (some (.ok ()), { b with pinClk := value })
  | .miso, env, b => (some (if env.pinFails then .error .gpio else .ok env.miso), b)
  | .sleep _, _, b => (some (), b)

/-- The pins as a machine; nothing here starts a thread. -/
def machine : Machine PinOp PinOp.Ans Bus PinEnv where
  exec := exec
  fork _ := none

@[simp] theorem machine_exec : machine.exec = exec := rfl

@[simp] theorem machine_fork (o : PinOp) : machine.fork o = none := rfl

/-! ## 2. The transfer -/

/-- A program over the pins. -/
abbrev SpiProc (α : Type) := Fallible PinOp PinOp.Ans Error α

/-- The body of the loop over `bit_idx`. -/
def transferBit (halfPeriod : Duration) (byteOut byteIn : UInt8) (bitIdx : UInt8) :
    SpiProc UInt8 := do
  Fallible.attempt (.mosi ((1 <<< bitIdx &&& byteOut) != 0)) id
  -- "perform half a clock wait"
  Fallible.call (PinOp.sleep halfPeriod)
  -- "rising edge on the clock corresponds to read from device"
  Fallible.attempt (.clk true) id
  let bitIn ← Fallible.attempt .miso id
  let byteIn := byteIn ||| (bitIn.toUInt8 <<< bitIdx)
  Fallible.call (PinOp.sleep halfPeriod)
  -- "falling edge on the clock corresponds to write to device"
  Fallible.attempt (.clk false) id
  pure byteIn

/-- The bit indices in the order of a big endian transfer, `(0..8).rev()`. -/
def bitIndices : List UInt8 := [7, 6, 5, 4, 3, 2, 1, 0]

/-- The body of the loop over the bytes. -/
def transferByte (halfPeriod : Duration) (byteOut byteIn : UInt8) : SpiProc UInt8 :=
  bitIndices.foldlM (transferBit halfPeriod byteOut) byteIn

/-- The loop over `outgoing.iter().zip(incoming.iter_mut())`: the buffer it leaves in `incoming`.
A failure leaves a buffer that nobody reads. -/
def transferBytes (halfPeriod : Duration) : List (UInt8 × UInt8) → SpiProc (List UInt8)
  | [] => pure []
  | (byteOut, byteIn) :: rest => do
    let byteIn ← transferByte halfPeriod byteOut byteIn
    let incoming ← transferBytes halfPeriod rest
    pure (byteIn :: incoming)

/-- `Device::transfer`: the incoming buffer afterwards. -/
def transfer (device : Nat) (outgoing incoming : List UInt8) : SpiProc (List UInt8) :=
  -- `assert_eq!(outgoing.len(), incoming.len())`
  if outgoing.length ≠ incoming.length then Fallible.abort
  else do
    let period ← Fallible.attempt (.lock device) id
    let body : SpiProc (List UInt8) := do
      -- "pull chip select down to begin talking"
      Fallible.attempt (.select device false) id
      let incoming ← transferBytes (period / 2) (outgoing.zip incoming)
      -- "bring chip select back up to let it know that we're done talking"
      Fallible.attempt (.select device true) id
      pure incoming
    body.thenAlways .unlock

end Slonk.Spi
