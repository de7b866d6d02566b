/-
# What a program may do

`Ensures` and `Follows` are about every answer.  Here it is some answers: `p.May Q` says that the
operations of `p` have answers on which it returns with `Q`, and `p.MayPerform P` that they have
answers on which it comes to an operation in `P`.  The rules are those of the programs: one for a
result, one for an operation, which names the answer, and one for a sequence.

`MayPerform.steps` gives the calls that lead there.
-/
import Slonk.Concurrency.Fallible

namespace Concurrency

variable {Op : Type} {Ans : Op → Type} {ε α β : Type}

namespace Prog

/-- On some answers the program returns, with `Q`. -/
def May : Prog Op Ans α → (α → Prop) → Prop
  | ret a, Q => Q a
  | panic, _ => False
  | op _ k, Q => ∃ a, (k a).May Q

/-- On some answers the program comes to an operation in `P`. -/
def MayPerform (P : Op → Prop) : Prog Op Ans α → Prop
  | ret _ => False
  | panic => False
  | op o k => P o ∨ ∃ a, (k a).MayPerform P

theorem May.mono {p : Prog Op Ans α} {Q Q' : α → Prop} (hp : p.May Q) (h : ∀ a, Q a → Q' a) :
    p.May Q' := by
  induction p with
  | ret a => exact h a hp
  | panic => exact hp
  | op o k ih =>
    obtain ⟨a, ha⟩ := hp
    exact ⟨a, ih a ha⟩

theorem May.bind {p : Prog Op Ans α} {f : α → Prog Op Ans β} {Q : β → Prop}
    (hp : p.May fun a => (f a).May Q) : (p.bind f).May Q := by
  induction p with
  | ret a => exact hp
  | panic => exact hp
  | op o k ih =>
    obtain ⟨a, ha⟩ := hp
    exact ⟨a, ih a ha⟩

variable {P : Op → Prop}

/-- In the first part of a sequence. -/
theorem MayPerform.bind {p : Prog Op Ans α} (hp : p.MayPerform P) (f : α → Prog Op Ans β) :
    (p.bind f).MayPerform P := by
  induction p with
  | ret a => exact hp.elim
  | panic => exact hp
  | op o k ih =>
    rcases hp with ho | ⟨a, ha⟩
    · exact .inl ho
    · exact .inr ⟨a, ih a ha⟩

/-- In its second part. -/
theorem May.performs {p : Prog Op Ans α} {f : α → Prog Op Ans β}
    (hp : p.May fun a => (f a).MayPerform P) : (p.bind f).MayPerform P := by
  induction p with
  | ret a => exact hp
  | panic => exact hp
  | op o k ih =>
    obtain ⟨a, ha⟩ := hp
    exact .inr ⟨a, ih a ha⟩

/-- **The calls that lead there.** -/
theorem MayPerform.steps {p : Prog Op Ans α} (hp : p.MayPerform P) :
    ∃ h o k, Steps p h (op o k) ∧ P o := by
  induction p with
  | ret a => exact hp.elim
  | panic => exact hp.elim
  | op o k ih =>
    rcases hp with ho | ⟨a, ha⟩
    · exact ⟨[], o, k, .refl _, ho⟩
    · obtain ⟨h, o', k', hs, ho'⟩ := ih a ha
      exact ⟨⟨o, some a⟩ :: h, o', k', .head hs, ho'⟩

end Prog

namespace Fallible

/-- On some answers the program gives a result, with `Q`. -/
def May (p : Fallible Op Ans ε α) (Q : α → Prop) : Prop := p.run.May fun r => ∃ a, r = .ok a ∧ Q a

variable {P : Op → Prop}

theorem May.pure {a : α} {Q : α → Prop} (h : Q a) : (pure a : Fallible Op Ans ε α).May Q :=
  ⟨a, rfl, h⟩

theorem May.call {o : Op} {Q : Ans o → Prop} (a : Ans o) (h : Q a) :
    (call o : Fallible Op Ans ε (Ans o)).May Q :=
  ⟨a, a, rfl, h⟩

theorem May.attempt {o : Op} {f : Ans o → Except ε α} {Q : α → Prop} (a : Ans o) {b : α}
    (hf : f a = .ok b) (h : Q b) : (attempt o f).May Q :=
  ⟨a, b, hf, h⟩

theorem May.mono {p : Fallible Op Ans ε α} {Q Q' : α → Prop} (hp : p.May Q)
    (h : ∀ a, Q a → Q' a) : p.May Q' := by
  refine Prog.May.mono hp ?_
  rintro _ ⟨a, rfl, ha⟩
  exact ⟨a, rfl, h a ha⟩

/-- **Sequencing.** -/
theorem May.bind {p : Fallible Op Ans ε α} {f : α → Fallible Op Ans ε β} {Q : β → Prop}
    (hp : p.May fun a => (f a).May Q) : (p >>= f).May Q := by
  refine Prog.May.bind (f := onOk f) (Prog.May.mono hp ?_)
  rintro _ ⟨a, rfl, ha⟩
  exact ha

/-- A block between two operations. -/
theorem May.guarded {o o' : Op} {body : Ans o → Fallible Op Ans ε α} {Q : α → Prop} (a : Ans o)
    (hbody : (body a).May Q) (a' : Ans o') : (guarded o body o').May Q := by
  refine ⟨a, Prog.May.bind (Prog.May.mono hbody ?_)⟩
  intro r hr
  exact ⟨a', hr⟩

/-- In the first part of a sequence. -/
theorem mayPerform_bind {p : Fallible Op Ans ε α} (hp : p.run.MayPerform P)
    (f : α → Fallible Op Ans ε β) : (p >>= f).run.MayPerform P :=
  Prog.MayPerform.bind hp (onOk f)

/-- In its second part. -/
theorem May.performs {p : Fallible Op Ans ε α} {f : α → Fallible Op Ans ε β}
    (hp : p.May fun a => (f a).run.MayPerform P) : (p >>= f).run.MayPerform P := by
  refine Prog.May.performs (f := onOk f) (Prog.May.mono hp ?_)
  rintro _ ⟨a, rfl, ha⟩
  exact ha

end Fallible

end Concurrency
