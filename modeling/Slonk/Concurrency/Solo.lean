/-
# One program on its own

`eval M p ω σ` runs `p` to its end on the shared state `σ` with nobody else moving: `ω n` is what
the outside world decides at the `n`-th operation.  A program is a finite tree, so the run ends
by construction; the result holds the calls in order, how the program ended, and the state it
left.

`eval_bind` runs a sequence as the two runs after one another, `Spec.invariant` carries an invariant
of single operations through a program all of whose operations respect it, and `run_eval_bind` is the
connection to `Threads.lean`: letting thread `i` run alone, as far as the end of the first part of its
program, is one of the interleavings of any system whose `i`-th thread is that program.
-/
import Slonk.Concurrency.Threads

namespace Concurrency

variable {Op : Type} {Ans : Op → Type} {σ Env α β : Type}

/-- How a program ended. -/
inductive Outcome (α : Type) : Type
  | returned (a : α)
  | panicked
  deriving DecidableEq

/-- The calls of a solo run, how it ended and the state it left. -/
structure Result {Op : Type} (Ans : Op → Type) (α σ : Type) where
  calls : List (Call Ans)
  outcome : Outcome α
  shared : σ

/-- Put a call in front of a result. -/
def Result.push (c : Call Ans) (r : Result Ans α σ) : Result Ans α σ :=
  { r with calls := c :: r.calls }

/-- Run the program alone. -/
def eval (M : Machine Op Ans σ Env) : Prog Op Ans α → (Nat → Env) → σ → Result Ans α σ
  | .ret a, _, s => ⟨[], .returned a, s⟩
  | .panic, _, s => ⟨[], .panicked, s⟩
  | .op o k, ω, s =>
    match (M.exec o (ω 0) s).1 with
    | some a => (eval M (k a) (fun n => ω (n + 1)) (M.exec o (ω 0) s).2).push ⟨o, some a⟩
    | none => ⟨[⟨o, none⟩], .panicked, (M.exec o (ω 0) s).2⟩

variable {M : Machine Op Ans σ Env}

@[simp] theorem eval_ret (a : α) (ω : Nat → Env) (s : σ) :
    eval M (.ret a) ω s = ⟨[], .returned a, s⟩ := rfl

@[simp] theorem eval_panic (ω : Nat → Env) (s : σ) :
    eval M (.panic : Prog Op Ans α) ω s = ⟨[], .panicked, s⟩ := rfl

theorem eval_op_some {o : Op} {k : Ans o → Prog Op Ans α} {ω : Nat → Env} {s : σ} {a : Ans o}
    (h : (M.exec o (ω 0) s).1 = some a) :
    eval M (.op o k) ω s
      = (eval M (k a) (fun n => ω (n + 1)) (M.exec o (ω 0) s).2).push ⟨o, some a⟩ := by
  simp only [eval, h]

theorem eval_op_none {o : Op} {k : Ans o → Prog Op Ans α} {ω : Nat → Env} {s : σ}
    (h : (M.exec o (ω 0) s).1 = none) :
    eval M (.op o k) ω s = ⟨[⟨o, none⟩], .panicked, (M.exec o (ω 0) s).2⟩ := by
  simp only [eval, h]

/-- What no operation changes, no program changes. -/
theorem eval_preserves {τ : Type} {f : σ → τ} (h : ∀ o env s, f (M.exec o env s).2 = f s)
    (p : Prog Op Ans α) (ω : Nat → Env) (s : σ) : f (eval M p ω s).shared = f s := by
  induction p generalizing ω s with
  | ret a => rfl
  | panic => rfl
  | op o k ih =>
    cases hexec : (M.exec o (ω 0) s).1 with
    | none =>
      rw [eval_op_none hexec]
      exact h o (ω 0) s
    | some a =>
      rw [eval_op_some hexec]
      exact (ih a _ _).trans (h o (ω 0) s)

/-! ## 1. Sequences -/

/-- What is left to do after a solo run of the first part of a sequence. -/
def Result.andThen (M : Machine Op Ans σ Env) (r : Result Ans α σ)
    (f : α → Prog Op Ans β) (ω : Nat → Env) : Result Ans β σ :=
  match r.outcome with
  | .returned a =>
    let r' := eval M (f a) (fun n => ω (n + r.calls.length)) r.shared
    ⟨r.calls ++ r'.calls, r'.outcome, r'.shared⟩
  | .panicked => ⟨r.calls, .panicked, r.shared⟩

/-- **A sequence runs as its two parts**, the second on the state the first left. -/
theorem eval_bind (p : Prog Op Ans α) (f : α → Prog Op Ans β) (ω : Nat → Env) (s : σ) :
    eval M (p.bind f) ω s = (eval M p ω s).andThen M f ω := by
  induction p generalizing ω s with
  | ret a => simp [Result.andThen]
  | panic => simp [Result.andThen]
  | op o k ih =>
    rw [Prog.bind_op]
    cases h : (M.exec o (ω 0) s).1 with
    | none => rw [eval_op_none h, eval_op_none h]; rfl
    | some a =>
      rw [eval_op_some h, eval_op_some h, ih]
      simp only [Result.andThen, Result.push]
      cases (eval M (k a) (fun n => ω (n + 1)) (M.exec o (ω 0) s).2).outcome with
      | panicked => rfl
      | returned b =>
        simp only [List.length_cons, List.cons_append, Nat.add_assoc]

/-! ## 2. Specifications

`Spec M E p s Q` is total correctness from the state `s`: whatever the outside world decides
within `E`, the program returns, it does not panic, and `Q` relates its result, its calls and
the state it leaves. -/

/-- From `s`, under decisions in `E`, the program returns and satisfies `Q`. -/
def Spec (M : Machine Op Ans σ Env) (E : Env → Prop) (p : Prog Op Ans α) (s : σ)
    (Q : α → List (Call Ans) → σ → Prop) : Prop :=
  ∀ ω : Nat → Env, (∀ n, E (ω n)) → ∃ a, (eval M p ω s).outcome = .returned a ∧
    Q a (eval M p ω s).calls (eval M p ω s).shared

variable {E : Env → Prop} {s : σ}

theorem Spec.ret {a : α} {Q : α → List (Call Ans) → σ → Prop} (h : Q a [] s) :
    Spec M E (.ret a) s Q := fun _ _ => ⟨a, rfl, h⟩

/-- One operation, then the rest on what it answered. -/
theorem Spec.op {o : Op} {k : Ans o → Prog Op Ans α} {Q : α → List (Call Ans) → σ → Prop}
    (h : ∀ env, E env → ∃ a, (M.exec o env s).1 = some a ∧
      Spec M E (k a) (M.exec o env s).2 fun b h s' => Q b (⟨o, some a⟩ :: h) s') :
    Spec M E (.op o k) s Q := by
  intro ω hω
  obtain ⟨a, ha, hk⟩ := h (ω 0) (hω 0)
  rw [eval_op_some ha]
  exact hk _ fun n => hω (n + 1)

/-- One operation whose effect is known. -/
theorem Spec.op_eq {o : Op} {k : Ans o → Prog Op Ans α} {Q : α → List (Call Ans) → σ → Prop}
    (h : ∀ env, E env → ∃ a s', M.exec o env s = (some a, s') ∧
      Spec M E (k a) s' fun b h s'' => Q b (⟨o, some a⟩ :: h) s'') :
    Spec M E (.op o k) s Q := by
  refine Spec.op fun env henv => ?_
  obtain ⟨a, s', hexec, hk⟩ := h env henv
  rw [hexec]
  exact ⟨a, rfl, hk⟩

theorem Spec.mono {p : Prog Op Ans α} {Q Q' : α → List (Call Ans) → σ → Prop}
    (h : Spec M E p s Q) (hQ : ∀ a h s', Q a h s' → Q' a h s') : Spec M E p s Q' := by
  intro ω hω
  obtain ⟨a, ha, hq⟩ := h ω hω
  exact ⟨a, ha, hQ _ _ _ hq⟩

/-- **The sequence rule.** -/
theorem Spec.bind {p : Prog Op Ans α} {f : α → Prog Op Ans β}
    {Q : β → List (Call Ans) → σ → Prop}
    (h : Spec M E p s fun a h s' => Spec M E (f a) s' fun b h' s'' => Q b (h ++ h') s'') :
    Spec M E (p.bind f) s Q := by
  intro ω hω
  obtain ⟨a, ha, hf⟩ := h ω hω
  obtain ⟨b, hb, hq⟩ := hf (fun n => ω (n + (eval M p ω s).calls.length)) fun n => hω _
  rw [eval_bind]
  simp only [Result.andThen, ha]
  exact ⟨b, hb, hq⟩

/-- A program without a panic in it. -/
def Prog.NoPanic : Prog Op Ans α → Prop
  | .ret _ => True
  | .panic => False
  | .op _ k => ∀ a, (k a).NoPanic

theorem Prog.NoPanic.bind {p : Prog Op Ans α} {f : α → Prog Op Ans β} (hp : p.NoPanic)
    (hf : ∀ a, (f a).NoPanic) : (p.bind f).NoPanic := by
  induction p with
  | ret a => exact hf a
  | panic => exact hp.elim
  | op o k ih => exact fun a => ih a (hp a)

/-- **The invariant rule.**  If every operation satisfying `P` answers and preserves `I`, a
program of such operations returns and preserves `I`. -/
theorem Spec.invariant {I : σ → Prop} {P : Op → Prop}
    (hexec : ∀ o env s, P o → I s → (M.exec o env s).1 ≠ none ∧ I (M.exec o env s).2)
    {p : Prog Op Ans α} (hp : p.All P) (hn : p.NoPanic) (hs : I s) :
    Spec M E p s fun _ _ s' => I s' := by
  induction p generalizing s with
  | ret a => exact Spec.ret hs
  | panic => exact hn.elim
  | op o k ih =>
    refine Spec.op fun env _ => ?_
    obtain ⟨hans, hs'⟩ := hexec o env s hp.1 hs
    obtain ⟨a, ha⟩ := Option.ne_none_iff_exists'.mp hans
    exact ⟨a, ha, ih a (hp.2 a) (hn a) hs'⟩

/-- From `s`, under decisions in `E`, the program panics. -/
def Panics (M : Machine Op Ans σ Env) (E : Env → Prop) (p : Prog Op Ans α) (s : σ) : Prop :=
  ∀ ω : Nat → Env, (∀ n, E (ω n)) → (eval M p ω s).outcome = .panicked

theorem Panics.op_none {o : Op} {k : Ans o → Prog Op Ans α}
    (h : ∀ env, E env → (M.exec o env s).1 = none) : Panics M E (.op o k) s := by
  intro ω hω
  rw [eval_op_none (h _ (hω 0))]

theorem Panics.op {o : Op} {k : Ans o → Prog Op Ans α}
    (h : ∀ env, E env → ∃ a, (M.exec o env s).1 = some a ∧ Panics M E (k a) (M.exec o env s).2) :
    Panics M E (.op o k) s := by
  intro ω hω
  obtain ⟨a, ha, hk⟩ := h _ (hω 0)
  rw [eval_op_some ha]
  exact hk _ fun n => hω (n + 1)

/-- A sequence panics in its second part. -/
theorem Panics.bind {p : Prog Op Ans α} {f : α → Prog Op Ans β}
    (h : Spec M E p s fun a _ s' => Panics M E (f a) s') : Panics M E (p.bind f) s := by
  intro ω hω
  obtain ⟨a, ha, hf⟩ := h ω hω
  rw [eval_bind]
  simp only [Result.andThen, ha]
  exact hf _ fun n => hω _

/-- A sequence panics in its first part. -/
theorem Panics.bind_left {p : Prog Op Ans α} {f : α → Prog Op Ans β} (h : Panics M E p s) :
    Panics M E (p.bind f) s := by
  intro ω hω
  rw [eval_bind]
  simp only [Result.andThen, h ω hω]

/-! ## 3. A solo run is an interleaving -/

/-- The calls of a solo run are steps of its program. -/
theorem steps_eval {p : Prog Op Ans α} {ω : Nat → Env} {s : σ} {a : α}
    (h : (eval M p ω s).outcome = .returned a) : Prog.Steps p (eval M p ω s).calls (.ret a) := by
  induction p generalizing ω s with
  | ret b =>
    obtain rfl := Outcome.returned.inj h
    exact Prog.Steps.refl _
  | panic => cases h
  | op o k ih =>
    cases hexec : (M.exec o (ω 0) s).1 with
    | none =>
      rw [eval_op_none hexec] at h
      cases h
    | some b =>
      rw [eval_op_some hexec] at h ⊢
      exact (ih b h).head (a := some b)

/-- The program has returned, and this check of what it returned and of its calls succeeds. -/
def Result.ends (r : Result Ans α σ) (P : α → List (Call Ans) → Bool) : Bool :=
  match r.outcome with
  | .returned a => P a r.calls
  | .panicked => false

/-- A solo run as the steps of a program. -/
theorem exists_steps {p : Prog Op Ans α} {ω : Nat → Env} {s : σ} {P : α → List (Call Ans) → Bool}
    (h : (eval M p ω s).ends P = true) : ∃ a l, Prog.Steps p l (.ret a) ∧ P a l = true := by
  unfold Result.ends at h
  split at h
  · rename_i a ha
    exact ⟨a, _, steps_eval ha, h⟩
  · cases h

/-- **The first part of a thread's program can run alone** to its end, when it returns. -/
theorem run_eval_bind (p : Prog Op Ans α) (ω : Nat → Env) {f : α → Prog Op Ans Unit} {a : α}
    {s : Sys Op Ans σ} {i : Nat} (hp : s.threads[i]? = some (p.bind f))
    (h : (eval M p ω s.shared).outcome = .returned a) :
    ∃ t s', Run M s t s' ∧ s'.threads[i]? = some (f a) ∧
      s'.shared = (eval M p ω s.shared).shared := by
  induction p generalizing ω s with
  | ret b =>
    obtain rfl := Outcome.returned.inj h
    exact ⟨[], s, Run.refl, hp, rfl⟩
  | panic => cases h
  | op o k ih =>
    have hstep := Machine.StepTo.intro (M := M) hp (ω 0)
    cases hexec : (M.exec o (ω 0) s.shared).1 with
    | none =>
      rw [eval_op_none hexec] at h
      cases h
    | some b =>
      rw [eval_op_some hexec] at h ⊢
      rw [hexec] at hstep
      obtain ⟨k', hk, hself⟩ := hstep.self
      obtain rfl : k' = fun b => (k b).bind f := by
        have := Option.some.inj (hk.symm.trans hp)
        simpa using this
      obtain ⟨t, s', hrun, hthread, hsh⟩ := ih b (fun n => ω (n + 1)) hself h
      exact ⟨_, s', Run.head hstep hrun, hthread, hsh⟩

/-- So it can when it is known to return. -/
theorem Spec.reach {E : Env → Prop} {p : Prog Op Ans α} {f : α → Prog Op Ans Unit}
    {s : Sys Op Ans σ} {i : Nat} {Q : α → List (Call Ans) → σ → Prop}
    (h : Spec M E p s.shared Q) (hp : s.threads[i]? = some (p.bind f)) {env : Env} (henv : E env) :
    ∃ a t h s', Run M s t s' ∧ s'.threads[i]? = some (f a) ∧ Q a h s'.shared := by
  obtain ⟨a, ha, hQ⟩ := h (fun _ => env) fun _ => henv
  obtain ⟨t, s', hrun, hthread, hsh⟩ := run_eval_bind p (fun _ => env) hp ha
  exact ⟨a, t, _, s', hrun, hthread, hsh ▸ hQ⟩

/-! ## 4. A history replayed -/

section Replay

variable [DecidableEq Op]

/-- What is left of a program after these calls, if they are calls it makes. -/
def Prog.replay : Prog Op Ans α → List (Call Ans) → Option (Prog Op Ans α)
  | p, [] => some p
  | .op o k, c :: h =>
    if heq : c.op = o then Prog.replay (Prog.resume k (heq ▸ c.ans)) h else none
  | .ret _, _ :: _ => none
  | .panic, _ :: _ => none

/-- It has returned, with a result that passes the check. -/
def Prog.returns (P : α → Bool) : Prog Op Ans α → Bool
  | .ret a => P a
  | _ => false

theorem steps_of_replay {p q : Prog Op Ans α} {h : List (Call Ans)} (hq : p.replay h = some q) :
    Prog.Steps p h q := by
  induction h generalizing p with
  | nil =>
    cases p <;> obtain rfl := Option.some.inj hq <;> exact Prog.Steps.refl _
  | cons c h ih =>
    cases p with
    | ret a => cases hq
    | panic => cases hq
    | op o k =>
      obtain ⟨op, ans⟩ := c
      simp only [Prog.replay] at hq
      split at hq
      · rename_i heq
        subst heq
        exact (ih hq).head
      · cases hq

/-- **What a thread is about to do at a moment of a run**, from its calls up to there. -/
theorem Moment.pending {s₀ s m m' : Sys Op Ans σ} {t t₁ t₂ : List (Event Ans)} {e : Event Ans}
    (h : Moment M s₀ t s t₁ m e m' t₂) {i : Nat} {p : Prog Op Ans Unit}
    (hp : s₀.threads[i]? = some p) {o : Op}
    (ho : (p.replay (history i (t.take t₁.length))).bind Prog.pending = some o) :
    m.threads[i]?.bind Prog.pending = some o := by
  obtain ⟨q, hq, hpending⟩ := Option.bind_eq_some_iff.mp ho
  obtain ⟨q', hq', hsteps⟩ := h.before.steps hp
  rw [h.split, List.take_left] at hq
  obtain rfl := (steps_of_replay hq).unique hsteps
  rw [hq', Option.bind_some, hpending]

/-- A history that makes a program return. -/
theorem exists_returns {p : Prog Op Ans α} {h : List (Call Ans)} {P : α → Bool}
    (hp : ((p.replay h).any (Prog.returns P)) = true) : ∃ a, Prog.Steps p h (.ret a) ∧ P a = true := by
  obtain ⟨q, hq, hreturns⟩ := (Option.any_eq_true _ _).mp hp
  unfold Prog.returns at hreturns
  split at hreturns
  · exact ⟨_, steps_of_replay hq, hreturns⟩
  · cases hreturns

end Replay

end Concurrency
