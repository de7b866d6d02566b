/-
# The host

What `Operations.lean` and `Controller.lean` say of an operation holds on a host that provides what the
controller takes for granted: a terminal to print to, a thread whenever one is to be spawned, a clock past
the UNIX epoch.  Without it the calling thread panics: in the `print!` of `UserLog::write`, in
`Scope::spawn`, in the `unwrap` of `duration_since(UNIX_EPOCH)` ("we trust that this code was run after
January 1st, 1970").  And a sensor may be of an ADC that is not there, although the configuration names
its chip select: `RaspberryPi::adcs` leaves out those whose line it does not get.

Here none of this is taken for granted.  Each operation of the server asks the host for what it needs
(`ServerOp.needs`), with the guards that its thread holds (`ServerOp.holding`), and a refusal is a panic
that poisons them; so is an index past the ADCs, where no guard is held (`refuse`).  `hosted` is the
server on such a host, with any number of ADCs.

On a host that has refused nothing (`Provided`) a run is one of the server as it was, but for the threads
that have met with a missing ADC and stand before it for ever (`server_of_hosted`).
-/
import Slonk.Shutdown
import Slonk.Concurrency.Asking

namespace Slonk

open Concurrency

/-! ## 1. What the server needs -/

/-- What the controller takes for granted. -/
inductive Provision
  /-- `print!` and `println!` succeed -/
  | terminal
  /-- the operating system can create a thread -/
  | thread
  /-- `SystemTime::now()` is at or after `UNIX_EPOCH`, and before the end of its range -/
  | clock
  deriving DecidableEq, Repr

/-- What an operation may need of the host. -/
def ServerOp.needs : ServerOp → List Provision
  -- `UserLog::write` reads the clock and prints before it locks the buffer
  | act (.acquire .userLog _) => [.clock, .terminal]
  -- `sensor_listen` unwraps the time of a reading only when it logs or sends it
  | act (.op .now) => [.clock]
  -- the time in the message log, which is read if there is a dashboard and the message has got there
  | act (.op (.send _)) => [.clock]
  | act (.op (.spawn _)) => [.thread]
  | act .spawnStop => [.thread]
  | spawnListener _ => [.thread]
  | _ => []

/-- `adcs[usize::from(sensor.adc)]` is out of bounds. -/
def ServerOp.pastAdcs (adcs : Nat) : ServerOp → Bool
  | act (.acquire (.adc i) _) => decide (adcs ≤ i.toNat)
  | _ => false

/-- The guards a thread holds after the operation. -/
def ServerOp.holding (guards : List Lock) : ServerOp → List Lock
  | act (.acquire l _) => l :: guards
  | act (.release l) => guards.erase l
  | _ => guards

/-- What the outside world decides when an operation runs, and what the host then lacks. -/
structure HostWorld extends ServerWorld where
  lacks : Provision → Bool

/-- Nothing fails, and nothing is lacking. -/
def HostWorld.fine : HostWorld := { ServerWorld.fine with lacks := fun _ => false }

/-- What a panic leaves, if there is one; the operation is not performed, nor any part of it. -/
def refuse (adcs : Nat) (guards : List Lock) (o : ServerOp) (w : HostWorld) (c : Controller) :
    Option Controller :=
  if o.needs.any w.lacks then some (guards.foldl Controller.poison c)
  -- `sensor_listen` holds no guard there
  else if o.pastAdcs adcs then some c
  else none

/-- The operations of the server, and the requests for them. -/
abbrev HostOp := Asked (List Lock) ServerOp

abbrev HostOp.Ans : HostOp → Type := Asked.Reply (List Lock) ServerOp.Ans

section Hosted

variable (F : Type) [F64 F] (config : Configuration) (profile : Profile)
  (fromSlice : List UInt8 → Option Command)

/-- **The server on its host**, with this many ADCs. -/
def hosted (adcs : Nat) : Machine HostOp HostOp.Ans Controller HostWorld :=
  (server F config profile fromSlice).asking ServerOp.holding [] HostWorld.toServerWorld (refuse adcs)

/-- `run`, as in `serverOf`. -/
def hostedOf (turns : Nat) (lines : List Bool) : Sys HostOp HostOp.Ans Controller :=
  (serverOf config profile fromSlice turns lines).asking ServerOp.holding []

end Hosted

/-! ## 2. A host that provides -/

/-- The host has not refused anything that was needed. -/
def Provided (t : List (Event HostOp.Ans)) : Prop :=
  ∀ e ∈ t, ∀ guards o, e.call = ⟨.ask guards o, none⟩ → o.needs = []

/-- `Provided`, of one event. -/
def provides (e : Event HostOp.Ans) : Bool :=
  match e.call with
  | ⟨.ask _ o, none⟩ => o.needs.isEmpty
  | _ => true

theorem needs_of_provides {e : Event HostOp.Ans} (h : provides e = true) {guards : List Lock}
    {o : ServerOp} (hcall : e.call = ⟨.ask guards o, none⟩) : o.needs = [] := by
  simpa [provides, hcall] using h

theorem Provided.initial {t t' : List (Event HostOp.Ans)} (h : Provided (t ++ t')) : Provided t :=
  fun e he => h e (List.mem_append_left _ he)

/-- A refusal that is not for want of anything does no harm. -/
theorem refuse_harmless {adcs : Nat} (guards : List Lock) (o : ServerOp) (w : HostWorld)
    (c c' : Controller) (h : refuse adcs guards o w c = some c') (hneeds : ¬ o.needs ≠ []) :
    c' = c ∧ o.pastAdcs adcs = true := by
  have hnone : o.needs.any w.lacks = false := by rw [not_not.mp hneeds, List.any_nil]
  rw [refuse, hnone, if_neg Bool.false_ne_true] at h
  split at h
  · rename_i hpast
    exact ⟨(Option.some.inj h).symm, hpast⟩
  · cases h

section Runs

variable {F : Type} [F64 F] {config : Configuration} {profile : Profile}
  {fromSlice : List UInt8 → Option Command} {turns adcs : Nat} {lines : List Bool}
  {t t₁ t₂ : List (Event HostOp.Ans)} {a m m' : Sys HostOp HostOp.Ans Controller}
  {e : Event HostOp.Ans}

/-- The threads of the server, and those that ask. -/
abbrev Hosts (adcs : Nat) (s : Sys ServerOp ServerOp.Ans Controller)
    (a : Sys HostOp HostOp.Ans Controller) : Prop :=
  AsksFor ServerOp.holding (fun o => o.pastAdcs adcs = true) s a

/-- **A run on a host that provides** is a run of the server. -/
theorem server_of_hosted (hrun : Run (hosted F config profile fromSlice adcs)
      (hostedOf config profile fromSlice turns lines) t a) (hprovided : Provided t) :
    ∃ s, Run (server F config profile fromSlice) (serverOf config profile fromSlice turns lines)
      (called t) s ∧ Hosts adcs s a :=
  Run.granted (fun o => o.needs ≠ []) (asksFor_asking _) refuse_harmless hrun
    fun e he guards o hcall => not_not.mpr (hprovided e he guards o hcall)

/-- **A moment of such a run**, at which an operation is performed. -/
theorem server_moment_of_hosted (hmoment : Moment (hosted F config profile fromSlice adcs)
      (hostedOf config profile fromSlice turns lines) t a t₁ m e m' t₂) (hprovided : Provided t)
    {o : ServerOp} {x : Option o.Ans} (hcall : e.call = ⟨.call o, x⟩) :
    ∃ s n n', Hosts adcs s a ∧ Hosts adcs n m ∧ Moment (server F config profile fromSlice)
      (serverOf config profile fromSlice turns lines) (called t) s (called t₁) n
        ⟨e.tid, ⟨o, x⟩⟩ n' (called t₂) := by
  have hsplit := hmoment.split
  obtain ⟨n, hbefore, hn⟩ := server_of_hosted hmoment.before (hsplit ▸ hprovided).initial
  obtain ⟨n', hstep, hn'⟩ := hn.call hmoment.step hcall
  obtain ⟨s, hafter, hs⟩ := Run.granted (fun o => o.needs ≠ []) hn' refuse_harmless
    hmoment.after fun e' he' guards o' hcall' =>
      not_not.mpr (hprovided e' (by rw [hsplit]; simp [he']) guards o' hcall')
  refine ⟨s, n, n', hs, hn, ?_, hbefore, hstep, hafter⟩
  obtain ⟨tid, call⟩ := e
  obtain rfl : call = ⟨.call o, x⟩ := hcall
  rw [hsplit, called_append]
  rfl

/-- A computed run, each of whose steps is seen to provide. -/
theorem provided_of_guardedRun {G : List (Event HostOp.Ans) → Sys HostOp HostOp.Ans Controller →
      Event HostOp.Ans → Prop}
    (h : GuardedRun (hosted F config profile fromSlice adcs) G a t m)
    (hG : ∀ t s e, G t s e → provides e = true) : Provided t :=
  fun _ he _ _ => needs_of_provides (h.forall_mem (fun t s e _ hg _ => hG t s e hg) _ he)

/-- What is refused on such a host is an ADC that is not there. -/
theorem pastAdcs_of_refused (hstep : (hosted F config profile fromSlice adcs).StepTo m e m')
    (hprovided : Provided [e]) {guards : List Lock} {o : ServerOp}
    (hcall : e.call = ⟨.ask guards o, none⟩) : o.pastAdcs adcs = true := by
  obtain ⟨tid, call⟩ := e
  obtain rfl : call = ⟨.ask guards o, none⟩ := hcall
  obtain ⟨w, hans, -⟩ := hstep.exec
  simp only [hosted, Machine.asking] at hans
  split at hans
  · rename_i c' hrefused
    have hneeds := hprovided _ (List.mem_singleton_self _) guards o rfl
    exact (refuse_harmless guards o w _ _ hrefused (not_not.mpr hneeds)).2
  · cases hans

end Runs

end Slonk
