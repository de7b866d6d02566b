/-
# Chip selects on the shared bus

A device listens to the bus while its chip select is low, so at most one may be low at a time, and
none when nobody talks.  `Device::transfer` pulls the pin of its own device down at the start and
up at the end, and holds the bus in between, but every failing pin operation on the way leaves it
early, with the pin still down.

The file follows a thread through its transfers by a `Phase`: it does not hold the bus, it talks to
a device, or its transfer has failed and is about to give the bus back.  `Coherent` ties the phases
of all threads to the bus.  As long as no pin operation has failed, a low chip select is the one of
the transfer in progress; and after one that has failed, the very next step of its thread leaves a
device selected with nobody talking to it.
-/
import Slonk.Spi
import Slonk.Concurrency.Modular

namespace Slonk.Spi

open Concurrency

/-! ## 1. The system and the property -/

/-- A call of `transfer`. -/
structure Transfer where
  device : Nat
  outgoing : List UInt8
  incoming : List UInt8

/-- A thread that makes these calls, one after the other, whatever they return. -/
def session : List Transfer → Prog PinOp PinOp.Ans Unit
  | [] => .ret ()
  | c :: rest => (transfer c.device c.outgoing c.incoming).run.bind fun _ => session rest

/-- Threads that make these calls on one bus. -/
def talkers (sessions : List (List Transfer)) (b : Bus) : Sys PinOp PinOp.Ans Bus :=
  ⟨b, sessions.map session⟩

/-- The pins, where chip-select writes do not fail. -/
def reliableSelects : Machine PinOp PinOp.Ans Bus {env : PinEnv // env.selectFails = false} :=
  machine.restrict fun env => env.selectFails = false

/-- A transfer takes the bus only when nobody holds it. -/
def Waits (_ : List (Event PinOp.Ans)) (s : Sys PinOp PinOp.Ans Bus) (e : Event PinOp.Ans) :
    Prop :=
  ∀ device, e.call.op = .lock device → s.shared.holder = none

/-- A run of transfers on one bus at rest. -/
def BusRun (sessions : List (List Transfer)) (period : Duration) (t : List (Event PinOp.Ans))
    (s : Sys PinOp PinOp.Ans Bus) : Prop :=
  GuardedRun reliableSelects Waits (talkers sessions (Bus.atRest period)) t s

/-- **Chip selects are exclusive**: they are all high when no transfer is in progress, and during
one only the pin of its device is low. -/
def ChipSelectsExclusive (b : Bus) : Prop :=
  ∀ device, b.chipSelects device = false → b.holder = some device

/-- A write to MOSI or the clock, or a read from MISO, that has failed. -/
def PinFails (e : Event PinOp.Ans) : Prop :=
  match e.call with
  | ⟨.mosi _, some (.error _)⟩ | ⟨.clk _, some (.error _)⟩ | ⟨.miso, some (.error _)⟩ => True
  | _ => False

/-! ## 2. The phases of a thread -/

/-- Where a thread is: between transfers, in one with its chip select low or not, or in one that
has failed. -/
inductive Phase
  | idle
  | talking (device : Nat) (selected : Bool)
  | failed (device : Nat)
  deriving DecidableEq

/-- The device of the transfer. -/
def Phase.device : Phase → Option Nat
  | idle => none
  | talking device _ => some device
  | failed device => some device

/-- What a call does to the phase. -/
def Phase.next : Phase → Call PinOp.Ans → Phase
  | idle, ⟨.lock device, some (.ok _)⟩ => talking device false
  | talking device _, ⟨.select _ value, some (.ok _)⟩ => talking device (!value)
  | talking device _, ⟨.mosi _, some (.error _)⟩ => failed device
  | talking device _, ⟨.clk _, some (.error _)⟩ => failed device
  | talking device _, ⟨.miso, some (.error _)⟩ => failed device
  | _, ⟨.unlock, _⟩ => idle
  | phase, _ => phase

/-- What a transfer may do in each phase. -/
def Phase.permits : Phase → PinOp → Prop
  | idle, o => ∃ device, o = .lock device
  | talking device selected, o =>
    match o with
    | .lock _ => False
    | .unlock => selected = false
    | .select device' _ => device' = device
    | .mosi _ | .clk _ | .miso | .sleep _ => selected = true
  | failed _, o => o = .unlock

def Phase.protocol : Protocol PinOp PinOp.Ans Phase where
  permits := Phase.permits
  aborts φ := φ = .idle
  next := Phase.next

/-- How operations answer where chip-select writes do not fail. -/
def Selects : (o : PinOp) → o.Ans → Prop
  | .select _ _, a => a = .ok ()
  | _, _ => True

/-- A part of a transfer has succeeded and the device is still selected, or has failed. -/
def Talks (device : Nat) {α : Type} (r : Except Error α) (φ : Phase) : Prop :=
  match r with
  | .ok _ => φ = .talking device true
  | .error _ => φ = .failed device

theorem talks_transferBit (device : Nat) (halfPeriod : Duration) (byteOut byteIn bitIdx : UInt8) :
    (transferBit halfPeriod byteOut byteIn bitIdx).run.Follows Phase.protocol Selects
      (.talking device true) (Talks device) := by
  refine ⟨rfl, fun a _ => ?_⟩
  rcases a with e | u
  · exact rfl
  refine ⟨rfl, fun _ _ => ⟨rfl, fun a _ => ?_⟩⟩
  rcases a with e | u
  · exact rfl
  refine ⟨rfl, fun a _ => ?_⟩
  rcases a with e | bitIn
  · exact rfl
  refine ⟨rfl, fun _ _ => ⟨rfl, fun a _ => ?_⟩⟩
  rcases a with e | u
  · exact rfl
  · exact rfl

/-- **A loop whose turns keep talking** keeps talking. -/
theorem talks_foldlM {α β : Type} {device : Nat} {f : β → α → SpiProc β}
    (hf : ∀ b a, (f b a).run.Follows Phase.protocol Selects (.talking device true) (Talks device)) :
    ∀ (l : List α) (b : β), (l.foldlM f b).run.Follows Phase.protocol Selects
      (.talking device true) (Talks device)
  | [], _ => rfl
  | a :: l, b => by
    refine Fallible.follows_bind (hf b a) ?_ fun e φ h => h
    rintro b' φ rfl
    exact talks_foldlM hf l b'

theorem talks_transferBytes (device : Nat) (halfPeriod : Duration) :
    ∀ l : List (UInt8 × UInt8), (transferBytes halfPeriod l).run.Follows Phase.protocol Selects
      (.talking device true) (Talks device)
  | [] => rfl
  | (byteOut, byteIn) :: rest => by
    refine Fallible.follows_bind
      (talks_foldlM (fun _ _ => talks_transferBit ..) bitIndices byteIn) ?_ fun e φ h => h
    rintro b φ rfl
    refine Fallible.follows_bind (talks_transferBytes device halfPeriod rest) ?_ fun e φ h => h
    rintro bs φ rfl
    exact rfl

/-- A transfer has the bus, and its device is not selected; or it does not. -/
def Starts (device : Nat) {α : Type} (r : Except Error α) (φ : Phase) : Prop :=
  match r with
  | .ok _ => φ = .talking device false
  | .error _ => φ = .idle

/-- A transfer has the bus, and its device is not selected any more, or it has failed. -/
def Ends (device : Nat) {α : Type} (r : Except Error α) (φ : Phase) : Prop :=
  match r with
  | .ok _ => φ = .talking device false
  | .error _ => φ = .failed device

theorem starts_lock (device : Nat) :
    (show SpiProc Duration from Fallible.attempt (.lock device) id).run.Follows
      Phase.protocol Selects .idle (Starts device) := by
  refine ⟨⟨device, rfl⟩, ?_⟩
  rintro (e | period) _
  · exact rfl
  · exact rfl

theorem talks_select (device : Nat) :
    (show SpiProc Unit from Fallible.attempt (.select device false) id).run.Follows
      Phase.protocol Selects (.talking device false) (Talks device) := by
  refine ⟨rfl, ?_⟩
  rintro _ rfl
  exact rfl

/-- The transfer proper, once it has the bus. -/
theorem ends_body (device : Nat) (halfPeriod : Duration) (buffers : List (UInt8 × UInt8)) :
    (show SpiProc (List UInt8) from do
      Fallible.attempt (.select device false) id
      let incoming ← transferBytes halfPeriod buffers
      Fallible.attempt (.select device true) id
      pure incoming).run.Follows Phase.protocol Selects (.talking device false) (Ends device) := by
  refine Fallible.follows_bind (talks_select device) ?_ fun e φ h => h
  rintro u φ rfl
  refine Fallible.follows_bind (talks_transferBytes device halfPeriod buffers) ?_ fun e φ h => h
  rintro bytes φ rfl
  refine ⟨rfl, ?_⟩
  rintro _ rfl
  exact rfl

/-- **A transfer** starts and ends without the bus, and does in between what its phase permits. -/
theorem follows_transfer (device : Nat) (outgoing incoming : List UInt8) :
    (transfer device outgoing incoming).run.Follows Phase.protocol Selects .idle
      fun _ φ => φ = .idle := by
  unfold transfer
  split
  · exact rfl
  refine Fallible.follows_bind (starts_lock device) ?_ fun e φ h => h
  rintro period φ rfl
  refine Fallible.follows_thenAlways (ends_body device _ _) ?_ ?_
  · rintro (e | bytes) φ rfl
    · exact rfl
    · exact rfl
  · rintro (e | bytes) φ a rfl _
    · exact rfl
    · exact rfl

/-- **A session** of transfers does so too. -/
theorem follows_session : ∀ calls : List Transfer,
    (session calls).Follows Phase.protocol Selects .idle fun _ φ => φ = .idle
  | [] => rfl
  | c :: rest => by
    refine Prog.Follows.bind ((follows_transfer c.device c.outgoing c.incoming).mono ?_)
    rintro _ φ rfl
    exact follows_session rest

/-! ## 3. What a step does -/

/-- The phase thread `i` is in. -/
def phase (i : Nat) (t : List (Event PinOp.Ans)) : Phase := Phase.protocol.after .idle (history i t)

@[simp] theorem phase_nil (i : Nat) : phase i [] = .idle := rfl

theorem phase_concat_self (t : List (Event PinOp.Ans)) (e : Event PinOp.Ans) :
    phase e.tid (t ++ [e]) = (phase e.tid t).next e.call := by
  simp [phase, history_concat_self, Phase.protocol]

theorem phase_concat_other {i : Nat} (t : List (Event PinOp.Ans)) {e : Event PinOp.Ans}
    (h : i ≠ e.tid) : phase i (t ++ [e]) = phase i t := by
  rw [phase, phase, history_concat_other t h.symm]

/-- No write and no read of these has failed. -/
def Quiet (t : List (Event PinOp.Ans)) : Prop := ∀ e ∈ t, ¬ PinFails e

theorem quiet_concat {t : List (Event PinOp.Ans)} {e : Event PinOp.Ans} :
    Quiet (t ++ [e]) ↔ Quiet t ∧ ¬ PinFails e := by
  simp [Quiet, or_imp, forall_and]

/-- The effect of a step on the phase of its thread and on the bus. -/
inductive Effect (e : Event PinOp.Ans) (b : Bus) : Phase → Phase → Bus → Prop
  | lock (device : Nat) (fine : ¬ PinFails e) (free : b.holder = none) :
      Effect e b .idle (.talking device false) { b with holder := some device }
  | select (device : Nat) (selected value : Bool) (fine : ¬ PinFails e) :
      Effect e b (.talking device selected) (.talking device (!value))
        { b with chipSelects := Function.update b.chipSelects device value }
  | work (device : Nat) (clk mosi : Bool) (fine : ¬ PinFails e) :
      Effect e b (.talking device true) (.talking device true)
        { b with pinClk := clk, pinMosi := mosi }
  | fail (device : Nat) (fails : PinFails e) :
      Effect e b (.talking device true) (.failed device) b
  | unlock (device : Nat) (φ : Phase) (fine : ¬ PinFails e)
      (ended : φ = .talking device false ∨ φ = .failed device) :
      Effect e b φ .idle { b with holder := none }

/-- **What an operation does** when the phase permits it and the mutex is not poisoned. -/
theorem effect_of_permits {φ : Phase} {e : Event PinOp.Ans} {b : Bus}
    (hpermits : φ.permits e.call.op) (hwaits : ∀ device, e.call.op = .lock device → b.holder = none)
    (hsound : b.poisoned = false) (env : PinEnv) (henv : env.selectFails = false)
    (hans : e.call.ans = (exec e.call.op env b).1) :
    Effect e b φ (φ.next e.call) (exec e.call.op env b).2 := by
  obtain ⟨i, ⟨o, a⟩⟩ := e
  obtain rfl : a = (exec o env b).1 := hans
  cases φ with
  | idle =>
    obtain ⟨device, rfl⟩ : ∃ device, o = .lock device := hpermits
    have hexec : exec (.lock device) env b =
        (some (.ok b.period), { b with holder := some device }) := by simp [exec, hsound]
    rw [hexec]
    exact .lock device id (hwaits device rfl)
  | failed device =>
    obtain rfl : o = .unlock := hpermits
    exact .unlock device _ id (.inr rfl)
  | talking device selected =>
    cases o with
    | lock device' => exact hpermits.elim
    | unlock =>
      obtain rfl : selected = false := hpermits
      exact .unlock device _ id (.inl rfl)
    | select device' value =>
      obtain rfl : device' = device := hpermits
      simp only [exec, henv]
      exact .select device' selected value id
    | mosi value =>
      obtain rfl : selected = true := hpermits
      cases hfails : env.pinFails with
      | true => simp only [exec, hfails]; exact .fail device trivial
      | false => simp only [exec, hfails]; exact .work device b.pinClk value id
    | clk value =>
      obtain rfl : selected = true := hpermits
      cases hfails : env.pinFails with
      | true => simp only [exec, hfails]; exact .fail device trivial
      | false => simp only [exec, hfails]; exact .work device value b.pinMosi id
    | miso =>
      obtain rfl : selected = true := hpermits
      cases hfails : env.pinFails with
      | true => simp only [exec, hfails]; exact .fail device trivial
      | false => simp only [exec, hfails]; exact .work device b.pinClk b.pinMosi id
    | sleep duration =>
      obtain rfl : selected = true := hpermits
      exact .work device b.pinClk b.pinMosi id

theorem poisoned_exec (o : PinOp) (env : PinEnv) (b : Bus) :
    (exec o env b).2.poisoned = b.poisoned := by
  cases o <;> simp only [exec] <;> split <;> rfl

theorem selects_of_exec (o : PinOp) (env : PinEnv) (b : Bus) (henv : env.selectFails = false) :
    (exec o env b).1 ≠ none ∧ ∀ a, (exec o env b).1 = some a → Selects o a := by
  cases o with
  | select device value => simp [exec, Selects, henv]
  | lock device => cases hp : b.poisoned <;> simp [exec, Selects, hp]
  | mosi value => cases hf : env.pinFails <;> simp [exec, Selects, hf]
  | clk value => cases hf : env.pinFails <;> simp [exec, Selects, hf]
  | _ => simp [exec, Selects]

section Runs

variable {sessions : List (List Transfer)} {period : Duration} {t : List (Event PinOp.Ans)}
  {s s' : Sys PinOp PinOp.Ans Bus} {e : Event PinOp.Ans}

/-- Chip-select writes succeed in every run, and no operation panics. -/
theorem selects_of_run {s₀ : Sys PinOp PinOp.Ans Bus} (h : Run reliableSelects s₀ t s) :
    ∀ e ∈ t, e.call.ans ≠ none ∧ ∀ a, e.call.ans = some a → Selects e.call.op a := by
  induction h with
  | refl => exact fun e he => absurd he List.not_mem_nil
  | @tail m m' t e _ hs ih =>
    intro e' he'
    rcases List.mem_append.mp he' with he' | he'
    · exact ih e' he'
    obtain rfl := List.mem_singleton.mp he'
    obtain ⟨env, hans, -⟩ := hs.exec
    rw [hans]
    exact selects_of_exec e'.call.op env.1 m.shared env.2

/-- **Every thread does what its phase permits.** -/
theorem follows_of_run (h : BusRun sessions period t s) {i : Nat} {q : Prog PinOp PinOp.Ans Unit}
    (hq : s.threads[i]? = some q) :
    q.Follows Phase.protocol Selects (phase i t) fun _ φ => φ = .idle := by
  have hselects := selects_of_run h.run
  have hstart : ∀ p ∈ (talkers sessions (Bus.atRest period)).threads,
      p.Follows Phase.protocol Selects .idle fun _ φ => φ = .idle := by
    intro p hp
    obtain ⟨calls, -, rfl⟩ := List.mem_map.mp hp
    exact follows_session calls
  rcases h.run.follows hstart (fun o p hp => nomatch hp) (fun e he => (hselects e he).2) hq with
    ⟨-, c, hc, hnone⟩ | hfollows
  · obtain ⟨e, he, -, rfl⟩ := mem_history.mp hc
    exact absurd hnone (hselects e he).1
  · exact hfollows

/-- A run of transfers does not poison the mutex. -/
theorem sound_of_run (h : BusRun sessions period t s) : s.shared.poisoned = false := by
  induction h with
  | refl => rfl
  | @tail m m' t e _ hs _ ih =>
    obtain ⟨env, -, hsh⟩ := hs.exec
    rw [hsh]
    exact (poisoned_exec e.call.op env.1 m.shared).trans ih

/-- **The effect of a step of a run.** -/
theorem effect_of_step (h : BusRun sessions period t s) (hs : reliableSelects.StepTo s e s')
    (hwaits : Waits t s e) :
    Effect e s.shared (phase e.tid t) (phase e.tid (t ++ [e])) s'.shared := by
  obtain ⟨k, env, hk, hans, hsh, -⟩ := hs.cases
  rw [phase_concat_self, hsh]
  exact effect_of_permits (follows_of_run h hk).1 hwaits (sound_of_run h) env.1 env.2 hans

/-! ## 4. The invariant -/

/-- Where the thread that holds the bus is, and the pins with it. -/
inductive Coherent (t : List (Event PinOp.Ans)) (b : Bus) : Prop
  | rest (others : ∀ j, phase j t = .idle) (holder : b.holder = none)
      (high : Quiet t → ∀ device, b.chipSelects device = true)
  | locked (i device : Nat) (others : ∀ j, j ≠ i → phase j t = .idle)
      (self : phase i t = .talking device false) (holder : b.holder = some device)
      (high : Quiet t → ∀ device', b.chipSelects device' = true)
  | selected (i device : Nat) (others : ∀ j, j ≠ i → phase j t = .idle)
      (self : phase i t = .talking device true) (holder : b.holder = some device)
      (low : b.chipSelects device = false)
      (high : Quiet t → ∀ device', device' ≠ device → b.chipSelects device' = true)
  | failed (i device : Nat) (others : ∀ j, j ≠ i → phase j t = .idle)
      (self : phase i t = .failed device) (holder : b.holder = some device)
      (low : b.chipSelects device = false) (loud : ¬ Quiet t)

/-- Only the thread that holds the bus is not idle. -/
theorem eq_of_not_idle {i j : Nat} (others : ∀ j, j ≠ i → phase j t = .idle)
    (hne : phase j t ≠ .idle) : j = i := by
  by_contra hji
  exact hne (others j hji)

theorem others_concat (others : ∀ j, j ≠ e.tid → phase j t = .idle) :
    ∀ j, j ≠ e.tid → phase j (t ++ [e]) = .idle := by
  intro j hj
  rw [phase_concat_other t hj]
  exact others j hj

/-- While the bus is free nobody talks. -/
theorem Coherent.of_free {b : Bus} (hc : Coherent t b) (free : b.holder = none) :
    (∀ j, phase j t = .idle) ∧ (Quiet t → ∀ device, b.chipSelects device = true) := by
  cases hc with
  | rest others _ high => exact ⟨others, high⟩
  | locked _ _ _ _ holder _ => simp [free] at holder
  | selected _ _ _ _ holder _ _ => simp [free] at holder
  | failed _ _ _ _ holder _ _ => simp [free] at holder

/-- While a thread talks, with its device selected or not, the others are idle. -/
theorem Coherent.of_talking {b : Bus} {i device : Nat} {selected : Bool} (hc : Coherent t b)
    (hφ : phase i t = .talking device selected) :
    (∀ j, j ≠ i → phase j t = .idle) ∧ b.holder = some device ∧
      (selected = true → b.chipSelects device = false) ∧
      (Quiet t → ∀ device', (selected = true → device' ≠ device) →
        b.chipSelects device' = true) := by
  have hne : phase i t ≠ .idle := by simp [hφ]
  cases hc with
  | rest others _ _ => exact absurd (others _) hne
  | locked i' device' others self holder high =>
    obtain rfl := eq_of_not_idle others hne
    obtain ⟨rfl, rfl⟩ : device = device' ∧ selected = false := by simpa [hφ] using self
    exact ⟨others, holder, nofun, fun hq device' _ => high hq device'⟩
  | selected i' device' others self holder low high =>
    obtain rfl := eq_of_not_idle others hne
    obtain ⟨rfl, rfl⟩ : device = device' ∧ selected = true := by simpa [hφ] using self
    exact ⟨others, holder, fun _ => low, fun hq device' hd => high hq device' (hd rfl)⟩
  | failed i' device' others self _ _ _ =>
    obtain rfl := eq_of_not_idle others hne
    simp [hφ] at self

theorem Coherent.talking {b : Bus} {i device : Nat} {selected : Bool}
    (others : ∀ j, j ≠ i → phase j t = .idle) (self : phase i t = .talking device selected)
    (holder : b.holder = some device) (low : selected = true → b.chipSelects device = false)
    (high : Quiet t → ∀ device', (selected = true → device' ≠ device) →
      b.chipSelects device' = true) : Coherent t b := by
  cases selected with
  | false => exact .locked i device others self holder fun hq device' => high hq device' nofun
  | true =>
    exact .selected i device others self holder (low rfl) fun hq device' hd => high hq device' fun _ => hd

/-- Once a transfer has failed its device stays selected. -/
theorem Coherent.of_failed {b : Bus} {i device : Nat} (hc : Coherent t b)
    (hφ : phase i t = .failed device) :
    (∀ j, j ≠ i → phase j t = .idle) ∧ b.chipSelects device = false ∧ ¬ Quiet t := by
  have hne : phase i t ≠ .idle := by simp [hφ]
  cases hc with
  | rest others _ _ => exact absurd (others _) hne
  | locked i' device' others self _ _ =>
    obtain rfl := eq_of_not_idle others hne
    simp [hφ] at self
  | selected i' device' others self _ _ _ =>
    obtain rfl := eq_of_not_idle others hne
    simp [hφ] at self
  | failed i' device' others self _ low loud =>
    obtain rfl := eq_of_not_idle others hne
    obtain rfl : device = device' := by simpa [hφ] using self
    exact ⟨others, low, loud⟩

/-- **A step keeps coherence.** -/
theorem Coherent.step {b b' : Bus} (hc : Coherent t b)
    (he : Effect e b (phase e.tid t) (phase e.tid (t ++ [e])) b') : Coherent (t ++ [e]) b' := by
  generalize hφ : phase e.tid t = φ at he
  generalize hφ' : phase e.tid (t ++ [e]) = φ' at he
  cases he with
  | lock device fine free =>
    obtain ⟨others, high⟩ := hc.of_free free
    exact .talking (others_concat fun j _ => others j) hφ' rfl nofun
      fun hq device' _ => high (quiet_concat.mp hq).1 device'
  | select device selected value fine =>
    obtain ⟨others, holder, low, high⟩ := hc.of_talking hφ
    refine .talking (others_concat others) hφ' holder (by simp) fun hq device' hd => ?_
    by_cases heq : device' = device
    · -- the device itself is high only if that was written
      have hvalue : value = true := by
        cases value with
        | true => rfl
        | false => exact absurd heq (hd rfl)
      simp [heq, hvalue]
    · simp [heq, high (quiet_concat.mp hq).1 device' fun _ => heq]
  | work device clk mosi fine =>
    obtain ⟨others, holder, low, high⟩ := hc.of_talking hφ
    exact .talking (others_concat others) hφ' holder low fun hq => high (quiet_concat.mp hq).1
  | fail device fails =>
    obtain ⟨others, holder, low, high⟩ := hc.of_talking hφ
    exact .failed e.tid device (others_concat others) hφ' holder (low rfl)
      fun hq => (quiet_concat.mp hq).2 fails
  | unlock device _ fine ended =>
    have hrest : (∀ j, j ≠ e.tid → phase j t = .idle) → ∀ j, phase j (t ++ [e]) = .idle := by
      intro others j
      by_cases hj : j = e.tid
      · rw [hj, hφ']
      · exact others_concat others j hj
    rcases ended with rfl | rfl
    · obtain ⟨others, holder, low, high⟩ := hc.of_talking hφ
      exact .rest (hrest others) rfl fun hq device' => high (quiet_concat.mp hq).1 device' nofun
    · obtain ⟨others, low, loud⟩ := hc.of_failed hφ
      exact .rest (hrest others) rfl fun hq => absurd (quiet_concat.mp hq).1 loud

/-- **Every run is coherent.** -/
theorem coherent_of_run (h : BusRun sessions period t s) : Coherent t s.shared := by
  induction h with
  | refl => exact .rest (fun _ => rfl) rfl fun _ _ => rfl
  | @tail m m' t e h hs hwaits ih => exact ih.step (effect_of_step h hs hwaits)

/-- A coherent bus keeps its chip selects exclusive as long as nothing has failed. -/
theorem Coherent.exclusive {b : Bus} (hc : Coherent t b) (hq : Quiet t) :
    ChipSelectsExclusive b := by
  intro device hlow
  cases hc with
  | rest _ _ high => simp [high hq device] at hlow
  | locked _ _ _ _ _ high => simp [high hq device] at hlow
  | selected i device' _ _ holder _ high =>
    by_contra hne
    have hd : device ≠ device' := by
      rintro rfl
      exact hne holder
    simp [high hq device hd] at hlow
  | failed _ _ _ _ _ _ loud => exact absurd hq loud

/-! ## 5. After a failure -/

/-- Nothing fails. -/
def fine : {env : PinEnv // env.selectFails = false} := ⟨⟨false, false, false⟩, rfl⟩

/-- MOSI, the clock and MISO fail. -/
def broken : {env : PinEnv // env.selectFails = false} := ⟨⟨false, true, false⟩, rfl⟩

/-- A transfer that has failed is about to give the bus back. -/
theorem unlock_of_failed {q : Prog PinOp PinOp.Ans Unit} {device : Nat}
    (h : q.Follows Phase.protocol Selects (.failed device) fun _ φ => φ = .idle) :
    ∃ k, q = .op .unlock k := by
  cases q with
  | ret _ => cases h
  | panic => cases h
  | op o k =>
    obtain rfl : o = .unlock := h.1
    exact ⟨k, rfl⟩

theorem Effect.failed {b b' : Bus} {φ φ' : Phase} (h : Effect e b φ φ' b') (hfails : PinFails e) :
    ∃ device, φ' = .failed device := by
  cases h with
  | fail device _ => exact ⟨device, rfl⟩
  | lock _ fine _ => exact absurd hfails fine
  | select _ _ _ fine => exact absurd hfails fine
  | work _ _ _ fine => exact absurd hfails fine
  | unlock _ _ fine _ => exact absurd hfails fine

/-- **The step after a failure** leaves a device selected with no transfer in progress. -/
theorem left_selected (h : BusRun sessions period (t ++ [e]) s) (hfails : PinFails e) :
    ∃ e' s', BusRun sessions period (t ++ [e] ++ [e']) s' ∧ ¬ ChipSelectsExclusive s'.shared := by
  obtain ⟨m, hm, hs, hwaits⟩ := h.concat_inv
  obtain ⟨device, hφ⟩ := (effect_of_step hm hs hwaits).failed hfails
  obtain ⟨-, hlow, -⟩ := (coherent_of_run h).of_failed hφ
  obtain ⟨k, -, hk⟩ := hs.self
  have hfollows := follows_of_run h hk
  rw [hφ] at hfollows
  obtain ⟨k', hk'⟩ := unlock_of_failed hfollows
  rw [hk'] at hk
  refine ⟨_, _, h.tail (Machine.StepTo.intro hk fine) nofun, ?_⟩
  intro hex
  exact nomatch hex device hlow

end Runs

/-! ## 6. The condition -/

/-- **Chip selects are exclusive as long as no MOSI write, clock write or MISO read fails**,
whatever the transfers and however the threads that make them interleave.  After any run that ends
in such a failure, the next step of its thread leaves a device selected with no transfer in
progress. -/
theorem chip_selects_exclusive_unless_pin_fails (sessions : List (List Transfer))
    (period : Duration) :
    (∀ t s, BusRun sessions period t s → Quiet t → ChipSelectsExclusive s.shared) ∧
      ∀ t e s, BusRun sessions period (t ++ [e]) s → PinFails e →
        ∃ e' s', BusRun sessions period (t ++ [e] ++ [e']) s' ∧ ¬ ChipSelectsExclusive s'.shared :=
  ⟨fun _ _ h hq => (coherent_of_run h).exclusive hq, fun _ _ _ h hfails => left_selected h hfails⟩

/-- One byte to device 0, and MOSI cannot be written: the device stays selected. -/
theorem failed_transfer_leaves_selected :
    ∃ t s, BusRun [[⟨0, [0], [0]⟩]] 2 t s ∧ ¬ ChipSelectsExclusive s.shared := by
  have hrun : BusRun [[⟨0, [0], [0]⟩]] 2 _ _ :=
    (((GuardedRun.refl.tail ⟨0, fine, rfl⟩ fun _ _ => rfl).tail ⟨0, fine, rfl⟩ nofun).tail
      ⟨0, broken, rfl⟩ nofun).tail ⟨0, fine, rfl⟩ nofun
  exact ⟨_, _, hrun, fun hex => nomatch hex 0 rfl⟩

end Slonk.Spi
