/-
# No deadlock

The locks of the controller have ranks, and every lock a thread takes is above all those it holds
(`rank_lt`, over `Thread.program_keeps`).  So there is no cycle of threads each waiting for a lock
the next one holds, however many threads of each kind there are and however they interleave.

The lowest locks are the ones nothing is nested under when they are taken: an ADC, the driver lines,
the command log, the state.  The two locks of `DashChannel::send` come next, in the order it takes
them, since `driver_status_listen` sends with the driver lines held.  Under the SPI bus and the user
log no lock is ever taken.
-/
import Slonk.Nesting

namespace Slonk

open Concurrency

/-- The order in which the source takes its locks. -/
def Lock.rank : Lock → Nat
  | .state | .adc _ | .driverLines | .cmdLog => 0
  | .dashChannel => 1
  | .messageLog => 2
  | .bus | .userLog => 3

theorem rank_lt {l' l : Lock} (h : Nests l' l ∨ NestsStatus l' l) : l'.rank < l.rank := by
  rcases h with h | h
  · cases h <;> simp [Lock.rank]
  · cases h <;> simp [Lock.rank]

theorem Lock.rank_lt_four (l : Lock) : l.rank < 4 := by
  cases l <;> simp [Lock.rank]

variable {F : Type} [F64 F] {config : Configuration} {profile : Profile}
  {fromSlice : List UInt8 → Option Command} {threads : List Thread} {c : Controller}
  {t : List (Event Act.Ans)} {s : Sys Act Act.Ans Controller}
  {G : List (Event Act.Ans) → Sys Act Act.Ans Controller → Event Act.Ans → Prop}

/-- **The threads never deadlock**: in every reachable state no thread asks for a lock it holds, no
chain of threads each waiting for a lock the next one holds comes back to where it started, and as
long as some thread is not done, some thread can take its next step. -/
theorem never_deadlocked (hrun : ControllerRun F config profile fromSlice G threads c t s) :
    (∀ i l mode mode', Locks.Requests s i l mode → ¬ Locks.Holds t s i l mode') ∧
      (∀ i, ¬ Relation.TransGen (Locks.WaitsFor t s) i i) ∧
      ∀ (i : Nat) (q : Prog Act Act.Ans Unit), s.threads[i]? = some q → ¬ q.Finished →
        ∃ j, Locks.Ready t s j := by
  have hs := controllerOf_keeps (R := fun l' l => Nests l' l ∨ NestsStatus l' l)
    (A := fun _ _ => True) (fun _ _ => Or.inl) (fun _ _ _ _ _ => Or.inr) F config profile fromSlice
    threads c
  have hfork := fork_keeps_locks (R := fun l' l => Nests l' l ∨ NestsStatus l' l)
    (A := fun _ _ => True) (fun _ _ => Or.inl) config
  have hA : ∀ e ∈ t, ∀ a, e.call.ans = some a → True := fun _ _ _ _ => trivial
  have hrank : ∀ l' l, Nests l' l ∨ NestsStatus l' l → l'.rank < l.rank := fun _ _ => rank_lt
  refine ⟨fun i l mode mode' hr hh => ?_, ?_, fun i q hq hf => ?_⟩
  · exact absurd (hrank _ _ (hr.nested hs hfork hrun.run hA hh)) (lt_irrefl _)
  · exact Locking.no_cycle hs hfork hrun.run hA hrank
  · exact Locking.exists_ready hs hfork hrun.run hA hrank Lock.rank_lt_four hq hf

/-- A run in which somebody has to wait: `driver_status_listen` has the driver lines, and the
emergency stop is about to write to one of them. -/
theorem contended_run_goes_on : ∃ t s,
    ControllerRun ℚ (.oneDriver [] [.actuate 0 true]) .release (fun _ => none)
      (fun _ _ _ => True) [.driverStatusListen 1, .emergencyStop] (.new [false]) t s ∧
    Locks.WaitsFor t s 1 0 ∧ ¬ Relation.TransGen (Locks.WaitsFor t s) 1 1 ∧
    ∃ j, Locks.Ready t s j := by
  obtain ⟨t, s, hrun, hp⟩ := exists_guardedRun (M := controller (.oneDriver [] [.actuate 0 true]))
    (G := fun t s e => Locks.Grants t s e ∧ True)
    (fun t s e h => ⟨Locking.grants_of_grants h, trivial⟩)
    (List.replicate 8 (0, World.fine) ++ List.replicate 3 (1, World.fine))
    (s := controllerOf ℚ (.oneDriver [] [.actuate 0 true]) .release (fun _ => none)
      [.driverStatusListen 1, .emergencyStop] (.new [false]))
    (P := fun t s =>
      decide (s.threads[0]?.bind Prog.pending = some (Act.readLine 0)) &&
      decide ((Lock.driverLines, Mode.exclusive) ∈ Locks.held (history 0 t)) &&
      decide (s.threads[1]?.bind Prog.pending
        = some (Act.acquire .driverLines .exclusive)))
    (by decide +kernel)
  simp only [Bool.and_eq_true, decide_eq_true_eq] at hp
  obtain ⟨⟨h₀, hheld⟩, h₁⟩ := hp
  have hsafe := never_deadlocked hrun
  refine ⟨t, s, hrun, ⟨.driverLines, .exclusive, .exclusive, ?_, ?_⟩, hsafe.2.1 1, ?_⟩
  · exact Locking.requests_of_pending h₁ rfl
  · exact Locking.holds_of_pending h₀ hheld
  · obtain ⟨q, hq, ho⟩ := Option.bind_eq_some_iff.mp h₀
    obtain ⟨k, rfl⟩ := Prog.pending_eq_some.mp ho
    exact hsafe.2.2 0 _ hq id

end Slonk
