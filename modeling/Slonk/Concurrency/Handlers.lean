/-
# Operations made of smaller ones

`p.expand f` is the program `p` with each operation `o` replaced by the program `f o` over other
operations.  It respects sequencing (`expand_bind`), so a program that is known to be a sequence
stays one, and what each `f o` does to a protocol's state, the whole does (`All.follows_expand`).
-/
import Slonk.Concurrency.Fallible

namespace Concurrency

variable {Op Op' : Type} {Ans : Op → Type} {Ans' : Op' → Type} {Γ α β : Type}

namespace Prog

/-- Every operation `o` as the program `f o`. -/
def expand (f : ∀ o, Prog Op' Ans' (Ans o)) : Prog Op Ans α → Prog Op' Ans' α
  | ret a => ret a
  | panic => panic
  | op o k => (f o).bind fun a => (k a).expand f

variable (f : ∀ o, Prog Op' Ans' (Ans o))

@[simp] theorem expand_ret (a : α) : (ret a : Prog Op Ans α).expand f = ret a := rfl

@[simp] theorem expand_panic : (panic : Prog Op Ans α).expand f = panic := rfl

@[simp] theorem expand_op (o : Op) (k : Ans o → Prog Op Ans α) :
    (op o k).expand f = (f o).bind fun a => (k a).expand f := rfl

theorem expand_bind (p : Prog Op Ans α) (g : α → Prog Op Ans β) :
    (p.bind g).expand f = (p.expand f).bind fun a => (g a).expand f := by
  induction p with
  | ret a => rfl
  | panic => rfl
  | op o k ih => simp only [bind_op, expand_op, ih, bind_assoc]

variable {f}

/-- What each expanded operation performs, the whole program performs. -/
theorem All.expand {P : Op → Prop} {Q : Op' → Prop} {p : Prog Op Ans α} (hp : p.All P)
    (hf : ∀ o, P o → (f o).All Q) : (p.expand f).All Q := by
  induction p with
  | ret a => trivial
  | panic => trivial
  | op o k ih => exact (hf o hp.1).bind fun a => ih a (hp.2 a)

theorem NoPanic.expand {p : Prog Op Ans α} (hp : p.NoPanic) (hf : ∀ o, (f o).NoPanic) :
    (p.expand f).NoPanic := by
  induction p with
  | ret a => trivial
  | panic => exact hp.elim
  | op o k ih => exact (hf o).bind fun a => ih a (hp a)

/-- **A protocol state that each expanded operation comes back to** is the state the whole program
comes back to. -/
theorem All.follows_expand {P : Op → Prop} {T : Protocol Op' Ans' Γ} {A : ∀ o, Ans' o → Prop}
    {γ : Γ} {p : Prog Op Ans α} (hp : p.All P) (haborts : T.aborts γ)
    (hf : ∀ o, P o → (f o).Follows T A γ fun _ γ' => γ' = γ) :
    (p.expand f).Follows T A γ fun _ γ' => γ' = γ := by
  induction p with
  | ret a => rfl
  | panic => exact haborts
  | op o k ih =>
    refine Follows.bind ((hf o hp.1).mono ?_)
    rintro a _ rfl
    exact ih a (hp.2 a)

end Prog

end Concurrency
