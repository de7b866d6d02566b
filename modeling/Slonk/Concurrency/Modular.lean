/-
# One thread among others

What a thread does can often be said without saying what the others do, as long as they leave
alone what its operations rely on.  `Prog.Ensures P A p Q` is about the program only: performing
operations in `P`, and answered as `A` allows, it returns, and `Q` relates its result and its
calls.  `Run.ensures` brings it to a system: if an invariant of the shared state makes the
operations in `P` answer as `A` allows, and the other threads' operations keep the invariant, the
thread does what its program ensures.
-/
import Slonk.Concurrency.Threads

namespace Concurrency

variable {Op : Type} {Ans : Op → Type} {σ Env α β : Type}

/-! ## 1. Programs -/

/-- The program performs operations in `P`; answered as `A` allows, it returns, and `Q` relates
its result and its calls. -/
def Prog.Ensures (P : Op → Prop) (A : ∀ o, Ans o → Prop) :
    Prog Op Ans α → (α → List (Call Ans) → Prop) → Prop
  | ret a, Q => Q a []
  | panic, _ => False
  | op o k, Q => P o ∧ ∀ a, A o a → (k a).Ensures P A fun b h => Q b (⟨o, some a⟩ :: h)

variable {P : Op → Prop} {A : ∀ o, Ans o → Prop}

theorem Prog.Ensures.mono {p : Prog Op Ans α} {Q Q' : α → List (Call Ans) → Prop}
    (hp : p.Ensures P A Q) (h : ∀ a h, Q a h → Q' a h) : p.Ensures P A Q' := by
  induction p generalizing Q Q' with
  | ret a => exact h a [] hp
  | panic => exact hp
  | op o k ih => exact ⟨hp.1, fun a ha => ih a (hp.2 a ha) fun b l => h b (⟨o, some a⟩ :: l)⟩

/-- **The sequence rule.** -/
theorem Prog.Ensures.bind {p : Prog Op Ans α} {f : α → Prog Op Ans β}
    {Q : β → List (Call Ans) → Prop}
    (hp : p.Ensures P A fun a h => (f a).Ensures P A fun b h' => Q b (h ++ h')) :
    (p.bind f).Ensures P A Q := by
  induction p generalizing Q with
  | ret a => exact hp
  | panic => exact hp
  | op o k ih => exact ⟨hp.1, fun a ha => ih a (hp.2 a ha)⟩

/-- A program can return, when every operation of it has an answer that is allowed. -/
theorem Prog.Ensures.returns {p : Prog Op Ans α} {Q : α → List (Call Ans) → Prop}
    (hA : ∀ o, P o → ∃ a, A o a) (hp : p.Ensures P A Q) : ∃ a h, Q a h := by
  induction p generalizing Q with
  | ret a => exact ⟨a, [], hp⟩
  | panic => exact hp.elim
  | op o k ih =>
    obtain ⟨a, ha⟩ := hA o hp.1
    obtain ⟨b, h, hQ⟩ := ih a (hp.2 a ha)
    exact ⟨b, _, hQ⟩

/-! ## 2. Threads -/

/-- The machine when the outside world decides within `E`. -/
def Machine.restrict (M : Machine Op Ans σ Env) (E : Env → Prop) :
    Machine Op Ans σ {env // E env} where
  exec o env s := M.exec o env.1 s
  fork := M.fork

variable {M : Machine Op Ans σ Env} {s s' : Sys Op Ans σ} {t : List (Event Ans)} {i : Nat}
  {p : Prog Op Ans α} {Q : α → List (Call Ans) → Prop} {R : Op → Prop} {I : σ → Prop}

/-- A thread that has performed the calls `h` of `p`, each in `P` and answered as `A` allows, and
what it still ensures. -/
structure Ensuring (P : Op → Prop) (A : ∀ o, Ans o → Prop) (p : Prog Op Ans α)
    (Q : α → List (Call Ans) → Prop) (h : List (Call Ans)) (q : Prog Op Ans α) : Prop where
  steps : Prog.Steps p h q
  calls : ∀ c ∈ h, ∃ a, c.ans = some a ∧ A c.op a
  rest : q.Ensures P A fun a h' => Q a (h ++ h')

/-- One more call. -/
theorem Ensuring.tail {h : List (Call Ans)} {o : Op} {k : Ans o → Prog Op Ans α} {a : Ans o}
    (he : Ensuring P A p Q h (.op o k)) (ha : A o a) :
    Ensuring P A p Q (h ++ [⟨o, some a⟩]) (k a) := by
  refine ⟨he.steps.tail (some a), ?_, ?_⟩
  · intro c hc
    rcases List.mem_append.mp hc with hc | hc
    · exact he.calls c hc
    · obtain rfl := List.mem_singleton.mp hc
      exact ⟨a, rfl, ha⟩
  · refine (he.rest.2 a ha).mono fun b h' hQ => ?_
    rwa [List.append_assoc]

/-- A thread that has finished has returned, and `Q` holds of its calls. -/
theorem Ensuring.finished {h : List (Call Ans)} {q : Prog Op Ans α} (he : Ensuring P A p Q h q)
    (hf : q.Finished) : ∃ a, q = .ret a ∧ Q a h := by
  cases q with
  | ret a =>
    refine ⟨a, rfl, ?_⟩
    have := he.rest
    rwa [Prog.Ensures, List.append_nil] at this
  | panic => exact he.rest.elim
  | op o k => exact hf.elim

/-- The calls so far can be completed to calls of which `Q` holds. -/
theorem Ensuring.complete {h : List (Call Ans)} {q : Prog Op Ans α} (he : Ensuring P A p Q h q)
    (hA : ∀ o, P o → ∃ a, A o a) : ∃ a h', Q a (h ++ h') := he.rest.returns hA

/-- **A thread among others does what its program ensures**, when an invariant makes its
operations answer as they should and the other threads' operations keep that invariant. -/
theorem Run.ensures (hexec : ∀ o env s, P o → I s →
      ∃ a, (M.exec o env s).1 = some a ∧ A o a ∧ I (M.exec o env s).2)
    (hother : ∀ o env s, R o → I s → I (M.exec o env s).2)
    (hp : s.threads[i]? = some p.discard) (hQ : p.Ensures P A Q) (hI : I s.shared)
    (hrun : Run M s t s') (hR : ∀ e ∈ t, e.tid ≠ i → R e.call.op) :
    I s'.shared ∧ ∃ q, s'.threads[i]? = some q.discard ∧ Ensuring P A p Q (history i t) q := by
  induction hrun with
  | refl => exact ⟨hI, p, hp, Prog.Steps.refl p, nofun, hQ⟩
  | @tail s' s'' t e _ hs ih =>
    obtain ⟨hI', q, hq, he⟩ := ih fun e he => hR e (List.mem_append_left _ he)
    obtain ⟨env, hans, hsh⟩ := hs.exec
    by_cases hi : e.tid = i
    · subst hi
      obtain ⟨k, hk, hk'⟩ := hs.self
      have hop := hk.symm.trans hq
      cases q with
      | ret a => cases hop
      | panic => cases hop
      | op o k₀ =>
        obtain ⟨tid, ⟨op, ans⟩⟩ := e
        cases hop
        obtain ⟨a, ha, hA, hI''⟩ := hexec op env s'.shared he.rest.1 hI'
        obtain rfl : ans = some a := hans.trans ha
        rw [history_concat_self]
        exact ⟨hsh ▸ hI'', k₀ a, hk', he.tail hA⟩
    · rw [history_concat_other t hi, hsh]
      refine ⟨hother _ env _ (hR e (by simp) hi) hI', q, ?_, he⟩
      rw [hs.other (Ne.symm hi) (List.getElem?_eq_some_iff.mp hq).1, hq]

/-- A thread with an operation pending can perform it. -/
theorem can_step {o : Op} {k : Ans o → Prog Op Ans α} {q : Prog Op Ans α}
    (hq : s.threads[i]? = some q.discard) (h : q = .op o k) (env : Env) :
    ∃ e s', M.StepTo s e s' ∧ e.tid = i := by
  subst h
  exact ⟨_, _, Machine.StepTo.intro hq env, rfl⟩

end Concurrency
