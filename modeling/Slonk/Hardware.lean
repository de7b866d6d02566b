/-
# Setting up the hardware

`server.rs`: before it starts its threads, `run` asks the chip for the lines of the bus, of the chip
selects, of the heartbeat and of the drivers (`MakeHardware for RaspberryPi`).  A line is got and
then requested, and the chip may refuse either.

Two of the checks of `Configuration::parse` are there for this set-up, and each has a gap.

* The clock: `parse` accepts a frequency of 10000, and `Mcp3208::new` asserts that the period is
  *less* than 100 microseconds, which is the period of that frequency.  That is the only one on
  which the two disagree (`clock_agrees_unless_limit`).
* The pins: the list that `parse` checks does not have `pin_heartbeat` in it
  (`heartbeat_covered_iff`).

The set-up itself has one too: the lines of the drivers and of the ADCs are collected through a
`flat_map`, which drops a line that the chip refuses instead of reporting it
(`handles_aligned_iff`).
-/
import Slonk.Validation
import Slonk.Monitoring
import Slonk.Concurrency.Fallible

namespace Slonk

open Concurrency

/-! ## 1. Lines -/

/-- `gpio_cdev::Error`. -/
abbrev GpioError := String

/-- `ControllerError`, as far as the set-up returns it. -/
inductive SetUpError
  | gpio (e : GpioError)
  deriving DecidableEq, Repr

/-- `LineRequestFlags`. -/
inductive LineRequestFlags
  | input
  | output
  deriving DecidableEq, Repr

/-- The operations of the set-up. -/
inductive GpioOp
  /-- `chip.get_line(line)` -/
  | getLine (line : UInt32)
  /-- `line.request(flags, default, "slonk")` -/
  | request (line : UInt32) (flags : LineRequestFlags) (default : UInt8)
  deriving DecidableEq, Repr

/-- The line an operation is about. -/
def GpioOp.line : GpioOp → UInt32
  | getLine line => line
  | request line _ _ => line

@[reducible] def GpioOp.Ans (_ : GpioOp) : Type := Except GpioError Unit

/-- `LineHandle`. -/
structure LineHandle where
  line : UInt32
  deriving DecidableEq, Repr

/-- `Bus<LineHandle>`. -/
structure BusHandles where
  period : Duration
  pinClk : LineHandle
  pinMosi : LineHandle
  pinMiso : LineHandle
  deriving DecidableEq, Repr

/-- `Mcp3208`, by the chip select of its `Device`. -/
structure AdcHandle where
  pinCs : LineHandle
  deriving DecidableEq, Repr

/-- A program of the set-up. -/
abbrev SetUp (α : Type) := Fallible GpioOp GpioOp.Ans SetUpError α

/-- `chip.get_line(u32::from(pin))?.request(flags, default, "slonk")?` -/
def requestLine (pin : UInt8) (flags : LineRequestFlags) (default : UInt8) : SetUp LineHandle := do
  Fallible.attempt (.getLine pin.toUInt32) fun r => r.mapError .gpio
  Fallible.attempt (.request pin.toUInt32 flags default) fun r => r.mapError .gpio
  pure ⟨pin.toUInt32⟩

/-- `pins.flat_map(|pin| chip.get_line(..).map(|line| line.request(..).map(make)))`, collected.  The
`flat_map` drops a line that the chip does not have; a request that is refused is an error of the
whole. -/
def collectLines {α : Type} (default : UInt8) (make : LineHandle → SetUp α) :
    List UInt8 → SetUp (List α)
  | [] => pure []
  | pin :: pins => do
    match ← Fallible.call (GpioOp.getLine pin.toUInt32) with
    | .error _ => collectLines default make pins
    | .ok () =>
      Fallible.attempt (.request pin.toUInt32 .output default) fun r => r.mapError .gpio
      let made ← make ⟨pin.toUInt32⟩
      let others ← collectLines default make pins
      pure (made :: others)

/-! ## 2. The Raspberry Pi -/

/-- `Duration::from_micros`. -/
def Duration.fromMicros (micros : Nat) : Duration := micros * 1000

/-- `Duration::from_micros(1_000_000 / SPI_MIN_FREQUENCY)` -/
def clockLimit : Duration := Duration.fromMicros (1000000 / spiMinFrequency)

/-- `Mcp3208::new`, of a device on this bus. -/
def Mcp3208.new (bus : BusHandles) (pinCs : LineHandle) : SetUp AdcHandle :=
  -- `assert!(device.clock_period() < ..)`
  if bus.period < clockLimit then pure ⟨pinCs⟩ else Fallible.abort

namespace RaspberryPi

variable (config : Configuration)

/-- The `period` of the bus: `Duration::from_secs(1) / config.spi_frequency_clk`. -/
def period : Option Duration := (Duration.divide oneSecond config.spiFrequencyClk).value

/-- `RaspberryPi::bus`. -/
def bus : SetUp BusHandles :=
  match period config with
  | none => .abort
  | some period => do
    let pinClk ← requestLine config.spiClk .output 0
    let pinMosi ← requestLine config.spiMosi .output 0
    let pinMiso ← requestLine config.spiMiso .input 0
    pure ⟨period, pinClk, pinMosi, pinMiso⟩

/-- `RaspberryPi::adcs`. -/
def adcs (bus : BusHandles) : SetUp (List AdcHandle) :=
  collectLines 1 (Mcp3208.new bus) config.adcCs

/-- `RaspberryPi::drivers`. -/
def drivers : SetUp (List LineHandle) :=
  collectLines 0 pure (config.drivers.map (·.pin))

/-- `RaspberryPi::heartbeat`. -/
def heartbeat : SetUp LineHandle := requestLine config.pinHeartbeat .output 0

end RaspberryPi

/-! ## 3. The clock -/

/-- **The two checks of the clock agree** on a configuration that `parse` accepts: the period meets
the assertion, and no ADC panics when it is constructed. -/
structure ClockAgrees (config : Configuration) : Prop where
  period : ∃ period, RaspberryPi.period config = some period ∧ period < clockLimit
  noPanic : ∀ bus : BusHandles, RaspberryPi.period config = some bus.period →
    (RaspberryPi.adcs config bus).run.NoPanic

theorem period_of_ne {config : Configuration} (h : config.spiFrequencyClk ≠ 0) :
    RaspberryPi.period config = some (1000000000 / config.spiFrequencyClk.toNat) := by
  unfold RaspberryPi.period
  rw [Duration.divide_of_ne h]
  rfl

/-- The period is rounded down, and is below the limit above 10000 hertz only. -/
theorem period_lt_iff {n : Nat} (hn : n ≠ 0) : 1000000000 / n < clockLimit ↔ 10000 < n := by
  have hlimit : clockLimit = 100000 := rfl
  rw [hlimit, Nat.div_lt_iff_lt_mul (Nat.pos_of_ne_zero hn)]
  omega

/-- A set-up of lines does not panic if what is made of each one does not. -/
theorem collectLines_noPanic {α : Type} {default : UInt8} {make : LineHandle → SetUp α}
    (hmake : ∀ handle, (make handle).run.NoPanic) :
    ∀ pins : List UInt8, (collectLines default make pins).run.NoPanic
  | [] => trivial
  | pin :: pins => by
    have ih : (collectLines default make pins).run.NoPanic := collectLines_noPanic hmake pins
    refine Fallible.noPanic_bind (fun _ => trivial) ?_
    rintro (e | u)
    · exact ih
    · refine Fallible.noPanic_bind (fun _ => trivial) fun _ => ?_
      exact Fallible.noPanic_bind (hmake _) fun _ => Fallible.noPanic_bind ih fun _ => trivial

/-- **The two checks of the clock agree on every frequency but the limit.**  A frequency below it
that is rejected would have failed the assertion. -/
theorem clock_agrees_unless_limit (config : Configuration) :
    (config.Accepted → (ClockAgrees config ↔ config.spiFrequencyClk.toNat ≠ 10000)) ∧
    (config.checkClock = .error .clockTooSlow → config.spiFrequencyClk ≠ 0 →
      ∃ period, RaspberryPi.period config = some period ∧ ¬ period < clockLimit) := by
  have hzero : config.spiFrequencyClk ≠ 0 ↔ config.spiFrequencyClk.toNat ≠ 0 :=
    not_congr UInt32.toNat_inj.symm
  constructor
  · intro haccepted
    have hclock := haccepted.isSound.clock
    have hne : config.spiFrequencyClk.toNat ≠ 0 := by omega
    have hperiod := period_of_ne (hzero.mpr hne)
    constructor
    · intro h
      obtain ⟨period, hp, hlt⟩ := h.period
      rw [hperiod] at hp
      obtain rfl := Option.some.inj hp
      have := (period_lt_iff hne).mp hlt
      omega
    · intro h
      have hlt := (period_lt_iff hne).mpr (by omega)
      refine ⟨⟨_, hperiod, hlt⟩, fun bus hbus => collectLines_noPanic (fun handle => ?_) _⟩
      rw [hperiod] at hbus
      unfold Mcp3208.new
      rw [if_pos (Option.some.inj hbus ▸ hlt)]
      trivial
  · intro hslow hne
    have hlt : config.spiFrequencyClk.toNat < 10000 := Configuration.checkClock_error hslow
    have hne' := hzero.mp hne
    refine ⟨_, period_of_ne hne, fun h => ?_⟩
    have := (period_lt_iff hne').mp h
    omega

/-- A stand with one ADC, at the limit of the clock. -/
def Configuration.atLimit : Configuration :=
  { Configuration.oneDriver [] [] with spiFrequencyClk := 10000, adcCs := [7] }

/-- One hertz above the limit no ADC panics, and one below it the assertion would have failed. -/
theorem above_limit_agrees :
    ClockAgrees { Configuration.atLimit with spiFrequencyClk := 10001 } ∧
      ∃ period,
        RaspberryPi.period { Configuration.atLimit with spiFrequencyClk := 9999 } = some period ∧
          ¬ period < clockLimit := by
  constructor
  · exact ((clock_agrees_unless_limit _).1
      (by unfold Configuration.Accepted; decide +kernel)).mpr (by decide)
  · exact (clock_agrees_unless_limit _).2 (by decide) (by decide)

/-- **At the limit** the configuration is accepted, and its ADC panics. -/
theorem limit_accepted :
    Configuration.parse Except.ok Configuration.atLimit = .ok Configuration.atLimit ∧
      ¬ ClockAgrees Configuration.atLimit ∧
      ∀ bus : BusHandles, RaspberryPi.period Configuration.atLimit = some bus.period →
        Prog.Steps (RaspberryPi.adcs Configuration.atLimit bus).run
          [⟨.getLine 7, some (.ok ())⟩, ⟨.request 7 .output 1, some (.ok ())⟩] .panic := by
  refine ⟨by decide +kernel, fun h => ?_, fun bus hbus => ?_⟩
  · obtain ⟨period, hp, hlt⟩ := h.period
    obtain rfl : 100000 = period := Option.some.inj hp
    exact absurd hlt (by decide)
  · obtain hperiod : 100000 = bus.period := Option.some.inj hbus
    have hnew : Mcp3208.new bus ⟨7⟩ = Fallible.abort := by
      unfold Mcp3208.new
      rw [← hperiod]
      rfl
    refine .head (.head ?_)
    have hrest : ∀ f : AdcHandle → SetUp (List AdcHandle), (Mcp3208.new bus ⟨7⟩ >>= f).run = .panic := by
      intro f
      rw [hnew]
      rfl
    exact (hrest _).symm ▸ Prog.Steps.refl _

/-! ## 4. The heartbeat -/

/-- **The heartbeat has a line of its own**: its pin is legal and is no other pin of the
configuration, and the set-up asks for its line for nothing else. -/
structure HeartbeatCovered (config : Configuration) : Prop where
  legal : 2 ≤ config.pinHeartbeat.toNat ∧ config.pinHeartbeat.toNat ≤ 27
  drivers : ∀ driver ∈ config.drivers, config.pinHeartbeat ≠ driver.pin
  bus : config.pinHeartbeat ≠ config.spiMosi ∧ config.pinHeartbeat ≠ config.spiMiso ∧
    config.pinHeartbeat ≠ config.spiClk
  chipSelects : ∀ pin ∈ config.adcCs, config.pinHeartbeat ≠ pin
  ownLine : (RaspberryPi.heartbeat config).run.All (·.line = config.pinHeartbeat.toUInt32)
  otherLines : (RaspberryPi.bus config).run.All (·.line ≠ config.pinHeartbeat.toUInt32) ∧
    (∀ bus, (RaspberryPi.adcs config bus).run.All (·.line ≠ config.pinHeartbeat.toUInt32)) ∧
    (RaspberryPi.drivers config).run.All (·.line ≠ config.pinHeartbeat.toUInt32)

section Lines

variable {P : GpioOp → Prop}

theorem requestLine_all {pin : UInt8} (h : ∀ o : GpioOp, o.line = pin.toUInt32 → P o)
    (flags : LineRequestFlags) (default : UInt8) : (requestLine pin flags default).run.All P :=
  Fallible.all_bind ⟨h _ rfl, fun _ => trivial⟩ fun _ =>
    Fallible.all_bind ⟨h _ rfl, fun _ => trivial⟩ fun _ => trivial

/-- A set-up of lines asks for the lines of its pins. -/
theorem collectLines_all {α : Type} {default : UInt8} {make : LineHandle → SetUp α}
    (hmake : ∀ handle, (make handle).run.All P) :
    ∀ {pins : List UInt8}, (∀ pin ∈ pins, ∀ o : GpioOp, o.line = pin.toUInt32 → P o) →
      (collectLines default make pins).run.All P
  | [], _ => trivial
  | pin :: pins, h => by
    rw [List.forall_mem_cons] at h
    have ih : (collectLines default make pins).run.All P := collectLines_all hmake h.2
    refine Fallible.all_bind ⟨h.1 _ rfl, fun _ => trivial⟩ ?_
    rintro (e | u)
    · exact ih
    · refine Fallible.all_bind ⟨h.1 _ rfl, fun _ => trivial⟩ fun _ => ?_
      exact Fallible.all_bind (hmake _) fun _ => Fallible.all_bind ih fun _ => trivial

end Lines

/-- The other parts of the set-up ask for the lines of the pins that `parse` checks. -/
theorem otherLines_of_not_mem {config : Configuration} (h : config.pinHeartbeat ∉ config.pins) :
    (RaspberryPi.bus config).run.All (·.line ≠ config.pinHeartbeat.toUInt32) ∧
      (∀ bus, (RaspberryPi.adcs config bus).run.All (·.line ≠ config.pinHeartbeat.toUInt32)) ∧
      (RaspberryPi.drivers config).run.All (·.line ≠ config.pinHeartbeat.toUInt32) := by
  have hline : ∀ pin ∈ config.pins, ∀ o : GpioOp, o.line = pin.toUInt32 →
      o.line ≠ config.pinHeartbeat.toUInt32 := by
    intro pin hpin o ho heq
    have hnat := congrArg UInt32.toNat (ho.symm.trans heq)
    rw [UInt8.toNat_toUInt32, UInt8.toNat_toUInt32] at hnat
    exact h (UInt8.toNat_inj.mp hnat ▸ hpin)
  refine ⟨?_, fun bus => ?_, ?_⟩
  · unfold RaspberryPi.bus
    split
    · trivial
    · exact Fallible.all_bind (requestLine_all (hline _ (by simp [Configuration.pins])) _ _) fun _ =>
        Fallible.all_bind (requestLine_all (hline _ (by simp [Configuration.pins])) _ _) fun _ =>
        Fallible.all_bind (requestLine_all (hline _ (by simp [Configuration.pins])) _ _) fun _ =>
        trivial
  · refine collectLines_all (fun handle => ?_) fun pin hpin => hline pin ?_
    · unfold Mcp3208.new
      split <;> trivial
    · simp [Configuration.pins, hpin]
  · refine collectLines_all (fun handle => ?_) fun pin hpin => hline pin ?_
    · trivial
    · exact List.mem_append_left _ (List.mem_append_left _ hpin)

/-- A pin that is no pin of a driver, of the bus or of a chip select. -/
theorem not_mem_pins_iff {config : Configuration} {pin : UInt8} :
    pin ∉ config.pins ↔ (∀ driver ∈ config.drivers, pin ≠ driver.pin) ∧
      (pin ≠ config.spiMosi ∧ pin ≠ config.spiMiso ∧ pin ≠ config.spiClk) ∧
      ∀ pinCs ∈ config.adcCs, pin ≠ pinCs := by
  rw [Configuration.pins, ← List.forall_mem_ne, List.forall_mem_append, List.forall_mem_append,
    List.forall_mem_map, and_assoc]
  simp

/-- **The heartbeat of an accepted configuration is covered exactly when the pin check would accept
its pin beside the others.** -/
theorem heartbeat_covered_iff (config : Configuration) (haccepted : config.Accepted) :
    HeartbeatCovered config ↔
      { config with adcCs := config.adcCs ++ [config.pinHeartbeat] }.checkPins = .ok () := by
  have hpins : Configuration.pins { config with adcCs := config.adcCs ++ [config.pinHeartbeat] }
      = config.pins ++ [config.pinHeartbeat] := by
    simp [Configuration.pins]
  have hsound := haccepted.isSound
  rw [Configuration.checkPins_ok_iff, hpins]
  constructor
  · intro h
    have hmem : config.pinHeartbeat ∉ config.pins :=
      not_mem_pins_iff.mpr ⟨h.drivers, h.bus, h.chipSelects⟩
    refine ⟨?_, fun pin hpin => ?_⟩
    · rw [List.nodup_append']
      exact ⟨hsound.distinct, List.nodup_singleton _, List.disjoint_singleton.mpr hmem⟩
    · rcases List.mem_append.mp hpin with hpin | hpin
      · exact (Configuration.isLegal_iff pin).mpr (hsound.legal pin hpin)
      · obtain rfl := List.mem_singleton.mp hpin
        exact (Configuration.isLegal_iff _).mpr h.legal
  · rintro ⟨hnodup, hlegal⟩
    have hmem : config.pinHeartbeat ∉ config.pins :=
      List.disjoint_singleton.mp (List.nodup_append'.mp hnodup).2.2
    obtain ⟨hdrivers, hbus, hchipSelects⟩ := not_mem_pins_iff.mp hmem
    exact ⟨(Configuration.isLegal_iff _).mp (hlegal _ (by simp)), hdrivers, hbus, hchipSelects,
      requestLine_all (fun _ => id) _ _, otherLines_of_not_mem hmem⟩

theorem oneDriver_covered : HeartbeatCovered (.oneDriver [] []) :=
  (heartbeat_covered_iff (.oneDriver [] []) (by unfold Configuration.Accepted; decide +kernel)).mpr
    (by decide +kernel)

/-- **An accepted heartbeat on the pin of a valve.** -/
theorem heartbeat_on_a_valve :
    Configuration.parse Except.ok { Configuration.oneDriver [] [] with pinHeartbeat := 21 }
        = .ok { Configuration.oneDriver [] [] with pinHeartbeat := 21 } ∧
      ¬ HeartbeatCovered { Configuration.oneDriver [] [] with pinHeartbeat := 21 } := by
  refine ⟨by decide +kernel, fun h => ?_⟩
  exact h.drivers _ List.mem_cons_self rfl

/-! ## 5. The handles -/

/-- The chip has refused the line, or the line its request. -/
def Refused (c : Call GpioOp.Ans) : Prop := ∃ e, c.ans = some (.error e)

/-- It asks for a line. -/
def GpioOp.IsGetLine (o : GpioOp) : Prop := ∃ line, o = .getLine line

/-- It requests one. -/
def GpioOp.IsRequest (o : GpioOp) : Prop := ∃ line flags default, o = .request line flags default

/-- **The handles line up with the pins**: a result has one handle for each pin, in their order and on
their lines, and where the chip or a line has refused a call the result is an error. -/
structure HandlesAligned {α : Type} (line : α → UInt32) (pins : List UInt8)
    (h : List (Call GpioOp.Ans)) (q : Prog GpioOp GpioOp.Ans (Except SetUpError (List α))) :
    Prop where
  handles : ∀ made, q = .ret (.ok made) → made.map line = pins.map (·.toUInt32)
  reported : (∃ c ∈ h, Refused c) → ∃ e, q = .ret (.error e)

/-- The chip has given every line it was asked for, or else a line has refused a request. -/
def LinesGiven (h : List (Call GpioOp.Ans)) : Prop :=
  (∀ c ∈ h, c.op.IsGetLine → ¬ Refused c) ∨ ∃ c ∈ h, c.op.IsRequest ∧ Refused c

/-- How a set-up of lines ends: with an error exactly if a request was refused, and with the handles
of all its pins if no line was. -/
structure Collects {α : Type} (line : α → UInt32) (pins : List UInt8) (h : List (Call GpioOp.Ans))
    (q : Prog GpioOp GpioOp.Ans (Except SetUpError (List α))) : Prop where
  fails : (∃ e, q = .ret (.error e)) ↔ ∃ c ∈ h, c.op.IsRequest ∧ Refused c
  made : (∀ c ∈ h, c.op.IsGetLine → ¬ Refused c) → ∀ made, q = .ret (.ok made) →
    made.map line = pins.map (·.toUInt32)

section Handles

variable {α : Type} {line : α → UInt32} {pins : List UInt8} {h : List (Call GpioOp.Ans)}
  {q : Prog GpioOp GpioOp.Ans (Except SetUpError (List α))}

/-- A set-up that panics has seen no request refused. -/
theorem Collects.panic (hh : ∀ c ∈ h, c.op.IsRequest → ¬ Refused c) :
    Collects line pins h .panic := by
  constructor
  · constructor
    · rintro ⟨e, he⟩
      cases he
    · rintro ⟨c, hc, hrequest, hrefused⟩
      exact (hh c hc hrequest hrefused).elim
  · intro _ made hmade
    cases hmade

/-- A call that was not refused changes nothing about how the set-up ends. -/
theorem Collects.granted {c : Call GpioOp.Ans} (hc : ¬ Refused c)
    (hq : Collects line pins h q) : Collects line pins (c :: h) q := by
  constructor
  · rw [hq.fails, List.exists_mem_cons_iff]
    simp [hc]
  · intro hget
    exact hq.made fun c' hc' => hget c' (List.mem_cons_of_mem _ hc')

theorem not_refused_none {o : GpioOp} : ¬ Refused ⟨o, none⟩ := nofun

theorem not_refused_ok {o : GpioOp} (u : Unit) : ¬ Refused ⟨o, some (.ok u)⟩ := nofun

/-- What is made of a line keeps the line, unless that panics. -/
def Keeps (line : α → UInt32) (make : LineHandle → SetUp α) : Prop :=
  ∀ handle, (∃ a, make handle = pure a ∧ line a = handle.line) ∨ make handle = Fallible.abort

/-- The rest of a set-up, after the request of a line was granted. -/
theorem collects_made {make : LineHandle → SetUp α} (hmake : Keeps line make) {pin : UInt8}
    {rest : SetUp (List α)} (hrest : ∀ {h q}, Prog.Steps rest.run h q → q.Finished →
      Collects line pins h q)
    (hs : Prog.Steps (make ⟨pin.toUInt32⟩ >>= fun made => rest >>= fun others =>
      pure (made :: others)).run h q) (hq : q.Finished) : Collects line (pin :: pins) h q := by
  rcases hmake ⟨pin.toUInt32⟩ with ⟨a, ha, hline⟩ | habort
  · rw [ha, pure_bind] at hs
    rcases Fallible.steps_bind hs hq with ⟨hp, rfl⟩ | ⟨e, hp, rfl⟩ | ⟨others, h₁, h₂, hp, hs', rfl⟩
    · have hends := hrest hp trivial
      refine .panic fun c hc hrequest hrefused => ?_
      obtain ⟨e, he⟩ := hends.fails.mpr ⟨c, hc, hrequest, hrefused⟩
      cases he
    · refine ⟨(hrest hp trivial).fails, ?_⟩
      intro _ made hmade
      cases hmade
    · have hends := hrest hp trivial
      obtain ⟨rfl, rfl⟩ := hs'.of_finished trivial
      rw [List.append_nil]
      constructor
      · rw [← hends.fails]
        constructor
        · rintro ⟨e, he⟩
          cases he
        · rintro ⟨e, he⟩
          cases he
      · intro hget made hmade
        obtain rfl : a :: others = made := by
          cases hmade
          rfl
        rw [List.map_cons, List.map_cons, hline, hends.made hget others rfl]
  · rw [habort] at hs
    obtain ⟨rfl, rfl⟩ := hs.of_finished trivial
    exact .panic nofun

/-- **A set-up of lines**, one pin after the other. -/
theorem collects {make : LineHandle → SetUp α} (hmake : Keeps line make) {default : UInt8} :
    ∀ (pins : List UInt8) {h : List (Call GpioOp.Ans)}
      {q : Prog GpioOp GpioOp.Ans (Except SetUpError (List α))},
      Prog.Steps (collectLines default make pins).run h q → q.Finished → Collects line pins h q
  | [], h, q, hs, hq => by
    obtain ⟨rfl, rfl⟩ := hs.of_finished trivial
    constructor
    · constructor
      · rintro ⟨e, he⟩
        cases he
      · rintro ⟨c, hc, -⟩
        cases hc
    · rintro - made hmade
      cases hmade
      rfl
  | pin :: pins, h, q, hs, hq => by
    have ih : ∀ {h q}, Prog.Steps (collectLines default make pins).run h q → q.Finished →
        Collects line pins h q := collects hmake pins
    change Prog.Steps (.op (GpioOp.getLine pin.toUInt32) _) h q at hs
    cases hs with
    | refl => exact hq.elim
    | @head _ _ given h _ hs =>
      rcases given with _ | e | u
      · obtain ⟨rfl, rfl⟩ := hs.of_finished trivial
        exact .granted not_refused_none (.panic nofun)
      · -- the line is dropped, and the others are collected
        have hends := ih hs hq
        constructor
        · rw [hends.fails, List.exists_mem_cons_iff]
          simp [GpioOp.IsRequest]
        · intro hget
          exact absurd ⟨e, rfl⟩ (hget _ List.mem_cons_self ⟨_, rfl⟩)
      · refine .granted (not_refused_ok u) ?_
        change Prog.Steps (.op (GpioOp.request pin.toUInt32 .output default) _) h q at hs
        cases hs with
        | refl => exact hq.elim
        | @head _ _ granted h _ hs =>
          rcases granted with _ | e | u
          · obtain ⟨rfl, rfl⟩ := hs.of_finished trivial
            exact .granted not_refused_none (.panic nofun)
          · obtain ⟨rfl, rfl⟩ := hs.of_finished trivial
            constructor
            · constructor
              · intro _
                exact ⟨_, List.mem_cons_self, ⟨_, _, _, rfl⟩, e, rfl⟩
              · intro _
                exact ⟨_, rfl⟩
            · intro _ made hmade
              cases hmade
          · exact .granted (not_refused_ok u) (collects_made hmake ih hs hq)

/-- So the handles line up exactly if no line was dropped, or a request was refused as well. -/
theorem Collects.aligned_iff (hcollects : Collects line pins h q) (hq : q.Finished)
    (hcalls : ∀ c ∈ h, c.op.IsGetLine ∨ c.op.IsRequest) :
    HandlesAligned line pins h q ↔ LinesGiven h := by
  constructor
  · intro haligned
    by_cases hget : ∀ c ∈ h, c.op.IsGetLine → ¬ Refused c
    · exact .inl hget
    · obtain ⟨c, hget⟩ := not_forall.mp hget
      obtain ⟨hc, -, hrefused⟩ : c ∈ h ∧ c.op.IsGetLine ∧ Refused c := by simpa using hget
      exact .inr (hcollects.fails.mp (haligned.reported ⟨c, hc, hrefused⟩))
  · rintro (hget | hrequest)
    · refine ⟨hcollects.made hget, ?_⟩
      rintro ⟨c, hc, hrefused⟩
      refine hcollects.fails.mpr ⟨c, hc, ?_, hrefused⟩
      exact (hcalls c hc).resolve_left fun h => hget c hc h hrefused
    · obtain ⟨e, rfl⟩ := hcollects.fails.mpr hrequest
      exact ⟨nofun, fun _ => ⟨e, rfl⟩⟩

theorem collectLines_aligned_iff {make : LineHandle → SetUp α} (hmake : Keeps line make)
    {default : UInt8} (hs : Prog.Steps (collectLines default make pins).run h q)
    (hq : q.Finished) : HandlesAligned line pins h q ↔ LinesGiven h := by
  refine (collects hmake pins hs hq).aligned_iff hq fun c _ => ?_
  cases c.op with
  | getLine line => exact .inl ⟨line, rfl⟩
  | request line flags default => exact .inr ⟨line, flags, default, rfl⟩

end Handles

/-- **The handles line up with the configuration exactly if `flat_map` has dropped no line**, or a
request has made the whole an error: in every run of the set-up, whatever the chip and the lines
answer. -/
theorem handles_aligned_iff (config : Configuration) :
    (∀ h q, Prog.Steps (RaspberryPi.drivers config).run h q → q.Finished →
      (HandlesAligned (·.line) (config.drivers.map (·.pin)) h q ↔ LinesGiven h)) ∧
    ∀ bus h q, Prog.Steps (RaspberryPi.adcs config bus).run h q → q.Finished →
      (HandlesAligned (·.pinCs.line) config.adcCs h q ↔ LinesGiven h) := by
  constructor
  · intro h q hs hq
    exact collectLines_aligned_iff (fun handle => .inl ⟨handle, rfl, rfl⟩) hs hq
  · intro bus h q hs hq
    refine collectLines_aligned_iff (fun handle => ?_) hs hq
    unfold Mcp3208.new
    split
    · exact .inl ⟨⟨handle⟩, rfl, rfl⟩
    · exact .inr rfl

/-- A stand with two drivers and two ADCs. -/
def twoOfEach : Configuration :=
  { Configuration.oneDriver [] [] with
    drivers := [⟨"OXI_FILL", "Open", "Close", 21, false⟩, ⟨"OXI_VENT", "Open", "Close", 16, false⟩]
    adcCs := [8, 7] }

/-- Its lines are all given and granted, and the handles are on its pins, in the order of these. -/
theorem two_handles_aligned :
    HandlesAligned (·.line) (twoOfEach.drivers.map (·.pin))
        [⟨.getLine 21, some (.ok ())⟩, ⟨.request 21 .output 0, some (.ok ())⟩,
          ⟨.getLine 16, some (.ok ())⟩, ⟨.request 16 .output 0, some (.ok ())⟩]
        (.ret (.ok [(⟨21⟩ : LineHandle), ⟨16⟩])) ∧
      HandlesAligned (·.pinCs.line) twoOfEach.adcCs
        [⟨.getLine 8, some (.ok ())⟩, ⟨.request 8 .output 1, some (.ok ())⟩,
          ⟨.getLine 7, some (.ok ())⟩, ⟨.request 7 .output 1, some (.ok ())⟩]
        (.ret (.ok [(⟨⟨8⟩⟩ : AdcHandle), ⟨⟨7⟩⟩])) := by
  obtain ⟨hdrivers, hadcs⟩ := handles_aligned_iff twoOfEach
  refine ⟨(hdrivers _ (.ret (.ok [⟨21⟩, ⟨16⟩])) ?_ trivial).mpr (.inl (by simp [Refused])),
    (hadcs ⟨20000, ⟨11⟩, ⟨10⟩, ⟨9⟩⟩ _ (.ret (.ok [⟨⟨8⟩⟩, ⟨⟨7⟩⟩])) ?_ trivial).mpr
      (.inl (by simp [Refused]))⟩
  · exact .head (.head (.head (.head (.refl _))))
  · exact .head (.head (.head (.head (.refl _))))

/-- **A line that the chip refuses is dropped**: the set-up of a driver that is not there ends well,
without a handle for it. -/
theorem refused_line_dropped :
    Prog.Steps (RaspberryPi.drivers (.oneDriver [] [])).run
        [⟨.getLine 21, some (.error "no such line")⟩] (.ret (.ok [])) ∧
      ¬ HandlesAligned (·.line) ((Configuration.oneDriver [] []).drivers.map (·.pin))
        [⟨.getLine 21, some (.error "no such line")⟩] (.ret (.ok ([] : List LineHandle))) := by
  refine ⟨.head (.refl _), fun h => ?_⟩
  obtain ⟨e, he⟩ := h.reported ⟨_, List.mem_cons_self, _, rfl⟩
  cases he

end Slonk
