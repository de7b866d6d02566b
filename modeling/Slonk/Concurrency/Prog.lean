/-
# Programs as trees of operations

A sequential program that talks to the rest of the system only through a fixed set of
operations is a tree: it has returned, it has panicked, or it is about to perform an operation
and goes on according to the answer.  `Prog Op Ans α` is that tree, with `Ans o` the answers
the operation `o` can give.

The file knows nothing about any particular program.  It gives

* the monad (`Prog.bind`, `LawfulMonad`), so that a program can be written in `do` notation;
* `Prog.All P`, "every operation on every path satisfies `P`";
* `Prog.Steps p h q`, "`p` performs the calls `h` and is left with `q`", which is what a single
  thread has done so far when nothing is known about the others.

`Threads.lean` interleaves such programs and `Solo.lean` runs one of them alone.
-/
import Mathlib.Tactic

namespace Concurrency

/-- A program that performs operations `o : Op`, is answered in `Ans o` and returns an `α`. -/
inductive Prog (Op : Type) (Ans : Op → Type) (α : Type) : Type
  | ret (a : α)
  | panic
  | op (o : Op) (k : Ans o → Prog Op Ans α)

/-- One performed operation and what became of it: its answer, or `none` when the thread
panicked inside it. -/
structure Call {Op : Type} (Ans : Op → Type) where
  op : Op
  ans : Option (Ans op)

variable {Op : Type} {Ans : Op → Type} {α β γ : Type}

namespace Prog

/-! ## 1. The monad -/

/-- Sequencing.  A panic skips the rest. -/
def bind : Prog Op Ans α → (α → Prog Op Ans β) → Prog Op Ans β
  | ret a, f => f a
  | panic, _ => panic
  | op o k, f => op o fun a => (k a).bind f

instance : Monad (Prog Op Ans) where
  pure := ret
  bind := bind

/-- Forget the result. -/
def discard (p : Prog Op Ans α) : Prog Op Ans Unit := p.bind fun _ => ret ()

@[simp] theorem bind_ret (a : α) (f : α → Prog Op Ans β) : (ret a).bind f = f a := rfl

@[simp] theorem bind_panic (f : α → Prog Op Ans β) :
    (panic : Prog Op Ans α).bind f = panic := rfl

@[simp] theorem bind_op (o : Op) (k : Ans o → Prog Op Ans α) (f : α → Prog Op Ans β) :
    (op o k).bind f = op o fun a => (k a).bind f := rfl

@[simp] theorem bind_pure_right (p : Prog Op Ans α) : p.bind ret = p := by
  induction p with
  | ret a => rfl
  | panic => rfl
  | op o k ih => simp only [bind_op, ih]

theorem bind_assoc (p : Prog Op Ans α) (f : α → Prog Op Ans β) (g : β → Prog Op Ans γ) :
    (p.bind f).bind g = p.bind fun a => (f a).bind g := by
  induction p with
  | ret a => rfl
  | panic => rfl
  | op o k ih => simp only [bind_op, ih]

instance : LawfulMonad (Prog Op Ans) :=
  LawfulMonad.mk' (Prog Op Ans) (fun p => bind_pure_right p) (fun _ _ => rfl) bind_assoc

/-- A block between two operations: the taking of a lock and the giving back, say. -/
def guarded (o : Op) (p : Ans o → Prog Op Ans α) (o' : Op) : Prog Op Ans α :=
  .op o fun a => (p a).bind fun r => .op o' fun _ => .ret r

/-- A program that will perform no further operation. -/
def Finished : Prog Op Ans α → Prop
  | op _ _ => False
  | _ => True

/-- The operation a program performs next. -/
def pending : Prog Op Ans α → Option Op
  | op o _ => some o
  | _ => none

theorem pending_eq_none {p : Prog Op Ans α} : p.pending = none ↔ p.Finished := by
  cases p <;> simp [pending, Finished]

theorem pending_eq_some {p : Prog Op Ans α} {o : Op} : p.pending = some o ↔ ∃ k, p = op o k := by
  cases p with
  | op o' k =>
    constructor
    · intro h
      obtain rfl := Option.some.inj h
      exact ⟨k, rfl⟩
    · rintro ⟨k', h⟩
      cases h
      rfl
  | _ => simp [pending]

/-! ## 2. Every operation of a program -/

/-- Every operation on every path of the program satisfies `P`, whatever the answers. -/
def All (P : Op → Prop) : Prog Op Ans α → Prop
  | ret _ => True
  | panic => True
  | op o k => P o ∧ ∀ a, (k a).All P

@[simp] theorem all_ret (P : Op → Prop) (a : α) : (ret a : Prog Op Ans α).All P := trivial

@[simp] theorem all_panic (P : Op → Prop) : (panic : Prog Op Ans α).All P := trivial

@[simp] theorem all_op (P : Op → Prop) (o : Op) (k : Ans o → Prog Op Ans α) :
    (op o k).All P ↔ P o ∧ ∀ a, (k a).All P := Iff.rfl

theorem All.of_forall {P : Op → Prop} (h : ∀ o, P o) : ∀ p : Prog Op Ans α, p.All P
  | ret _ => trivial
  | panic => trivial
  | op o k => ⟨h o, fun a => All.of_forall h (k a)⟩

theorem All.mono {P Q : Op → Prop} (h : ∀ o, P o → Q o) {p : Prog Op Ans α} (hp : p.All P) :
    p.All Q := by
  induction p with
  | ret a => trivial
  | panic => trivial
  | op o k ih => exact ⟨h o hp.1, fun a => ih a (hp.2 a)⟩

theorem All.bind {P : Op → Prop} {p : Prog Op Ans α} {f : α → Prog Op Ans β} (hp : p.All P)
    (hf : ∀ a, (f a).All P) : (p.bind f).All P := by
  induction p with
  | ret a => exact hf a
  | panic => trivial
  | op o k ih => exact ⟨hp.1, fun a => ih a (hp.2 a)⟩

theorem All.and {P Q : Op → Prop} {p : Prog Op Ans α} (hp : p.All P) (hq : p.All Q) :
    p.All fun o => P o ∧ Q o := by
  induction p with
  | ret a => trivial
  | panic => trivial
  | op o k ih => exact ⟨⟨hp.1, hq.1⟩, fun a => ih a (hp.2 a) (hq.2 a)⟩

theorem All.guarded {P : Op → Prop} {o o' : Op} {p : Ans o → Prog Op Ans α} (ho : P o)
    (hp : ∀ a, (p a).All P) (ho' : P o') : (guarded o p o').All P :=
  ⟨ho, fun a => (hp a).bind fun _ => ⟨ho', fun _ => trivial⟩⟩

theorem All.discard {P : Op → Prop} {p : Prog Op Ans α} (hp : p.All P) : p.discard.All P :=
  hp.bind fun _ => trivial

/-- A finished program performs nothing. -/
theorem Finished.all {P : Op → Prop} {p : Prog Op Ans α} (h : p.Finished) : p.All P := by
  cases p with
  | ret a => trivial
  | panic => trivial
  | op o k => exact h.elim

/-! ## 3. The calls a program has made -/

/-- What is left of a program after its pending operation was answered, or panicked. -/
def resume {o : Op} (k : Ans o → Prog Op Ans α) : Option (Ans o) → Prog Op Ans α
  | some a => k a
  | none => panic

@[simp] theorem resume_some {o : Op} (k : Ans o → Prog Op Ans α) (a : Ans o) :
    resume k (some a) = k a := rfl

@[simp] theorem resume_none {o : Op} (k : Ans o → Prog Op Ans α) :
    resume k none = panic := rfl

theorem resume_bind {o : Op} (k : Ans o → Prog Op Ans α) (f : α → Prog Op Ans β)
    (a : Option (Ans o)) : resume (fun a => (k a).bind f) a = (resume k a).bind f := by
  cases a <;> rfl

theorem All.resume {P : Op → Prop} {o : Op} {k : Ans o → Prog Op Ans α}
    (h : (op o k).All P) (a : Option (Ans o)) : (resume k a).All P := by
  cases a with
  | none => trivial
  | some a => exact h.2 a

/-- `Steps p h q`: answered as in `h`, call by call, `p` becomes `q`. -/
inductive Steps : Prog Op Ans α → List (Call Ans) → Prog Op Ans α → Prop
  | refl (p : Prog Op Ans α) : Steps p [] p
  | head {o : Op} {k : Ans o → Prog Op Ans α} {a : Option (Ans o)} {h : List (Call Ans)}
      {q : Prog Op Ans α} : Steps (resume k a) h q → Steps (op o k) (⟨o, a⟩ :: h) q

/-- Steps compose, appending their calls. -/
theorem Steps.trans {p q r : Prog Op Ans α} {h h' : List (Call Ans)} (h₁ : Steps p h q)
    (h₂ : Steps q h' r) : Steps p (h ++ h') r := by
  induction h₁ with
  | refl p => exact h₂
  | head _ ih => exact (ih h₂).head

/-- One more call at the end. -/
theorem Steps.tail {p : Prog Op Ans α} {h : List (Call Ans)} {o : Op}
    {k : Ans o → Prog Op Ans α} (h₁ : Steps p h (op o k)) (a : Option (Ans o)) :
    Steps p (h ++ [⟨o, a⟩]) (resume k a) :=
  h₁.trans (Steps.refl (resume k a)).head

theorem Steps.nil_inv {p q : Prog Op Ans α} (hs : Steps p [] q) : q = p := by
  cases hs
  rfl

/-- The last of several calls. -/
theorem Steps.concat_inv {p q : Prog Op Ans α} {h : List (Call Ans)} {c : Call Ans}
    (hs : Steps p (h ++ [c]) q) : ∃ k, Steps p h (op c.op k) ∧ q = resume k c.ans := by
  induction h generalizing p with
  | nil =>
    cases hs with
    | @head o k a h q hs =>
      exact ⟨k, Steps.refl _, hs.nil_inv⟩
  | cons c' h ih =>
    cases hs with
    | head hs =>
      obtain ⟨k, hk, hq⟩ := ih hs
      exact ⟨k, hk.head, hq⟩

/-- A call in the middle. -/
theorem Steps.split {p q : Prog Op Ans α} {h h' : List (Call Ans)} {c : Call Ans}
    (hs : Steps p (h ++ c :: h') q) :
    ∃ k, Steps p h (op c.op k) ∧ Steps (resume k c.ans) h' q := by
  induction h generalizing p with
  | nil =>
    cases hs with
    | @head o k a h q hs => exact ⟨k, Steps.refl _, hs⟩
  | cons c' h ih =>
    cases hs with
    | head hs =>
      obtain ⟨k, hk, hq⟩ := ih hs
      exact ⟨k, hk.head, hq⟩

/-- The calls determine what is left. -/
theorem Steps.unique {p q q' : Prog Op Ans α} {h : List (Call Ans)} (hs : Steps p h q)
    (hs' : Steps p h q') : q' = q := by
  induction hs with
  | refl p => exact hs'.nil_inv
  | head _ ih =>
    cases hs' with
    | head hs' => exact ih hs'

/-- A finished program makes no call. -/
theorem Steps.of_finished {p q : Prog Op Ans α} {h : List (Call Ans)} (hs : Steps p h q)
    (hp : p.Finished) : h = [] ∧ q = p := by
  cases hs with
  | refl => exact ⟨rfl, rfl⟩
  | head _ => exact hp.elim

/-- The calls a program makes are among its operations, and so are those still to come. -/
theorem Steps.all {P : Op → Prop} {p q : Prog Op Ans α} {h : List (Call Ans)}
    (hs : Steps p h q) : p.All P → (∀ c ∈ h, P c.op) ∧ q.All P := by
  induction hs with
  | refl p => exact fun hp => ⟨by simp, hp⟩
  | @head o k a h q _ ih =>
    intro hp
    obtain ⟨hh, hq⟩ := ih (hp.resume a)
    refine ⟨?_, hq⟩
    intro c hc
    rcases List.mem_cons.mp hc with rfl | hc
    · exact hp.1
    · exact hh c hc

/-- At most one operation on each path satisfies `P`. -/
def Once (P : Op → Prop) : Prog Op Ans α → Prop
  | ret _ => True
  | panic => True
  | op o k => (P o ∧ ∀ a, (k a).All (¬ P ·)) ∨ (¬ P o ∧ ∀ a, (k a).Once P)

theorem All.once {P : Op → Prop} {p : Prog Op Ans α} (h : p.All (¬ P ·)) : p.Once P := by
  induction p with
  | ret a => trivial
  | panic => trivial
  | op o k ih => exact Or.inr ⟨h.1, fun a => ih a (h.2 a)⟩

/-- Once in the first part, and never in the second. -/
theorem Once.bind {P : Op → Prop} {p : Prog Op Ans α} {f : α → Prog Op Ans β} (hp : p.Once P)
    (hf : ∀ a, (f a).All (¬ P ·)) : (p.bind f).Once P := by
  induction p with
  | ret a => exact (hf a).once
  | panic => trivial
  | op o k ih =>
    rcases hp with ⟨ho, hk⟩ | ⟨ho, hk⟩
    · exact Or.inl ⟨ho, fun a => All.bind (hk a) hf⟩
    · exact Or.inr ⟨ho, fun a => ih a (hk a)⟩

/-- Never in the first part, and once in the second. -/
theorem Once.after {P : Op → Prop} {p : Prog Op Ans α} {f : α → Prog Op Ans β}
    (hp : p.All (¬ P ·)) (hf : ∀ a, (f a).Once P) : (p.bind f).Once P := by
  induction p with
  | ret a => exact hf a
  | panic => trivial
  | op o k ih => exact Or.inr ⟨hp.1, fun a => ih a (hp.2 a)⟩

/-- **After the one operation there is none.** -/
theorem Steps.once {P : Op → Prop} {p q : Prog Op Ans α} {h : List (Call Ans)}
    (hs : Steps p h q) (hp : p.Once P) (hh : ∃ c ∈ h, P c.op) : q.All (¬ P ·) := by
  induction hs with
  | refl p =>
    obtain ⟨c, hc, -⟩ := hh
    cases hc
  | @head o k a h q hs ih =>
    rcases hp with ⟨-, hk⟩ | ⟨ho, hk⟩
    · refine (hs.all ?_).2
      cases a with
      | none => trivial
      | some a => exact hk a
    · obtain ⟨c, hc, hP⟩ := hh
      have hc' : c ∈ h := by
        rcases List.mem_cons.mp hc with rfl | hc
        · exact absurd hP ho
        · exact hc
      refine ih ?_ ⟨c, hc', hP⟩
      cases a with
      | none => trivial
      | some a => exact hk a

/-- **Steps of a sequence**: either the first part is still running, or it has returned and
the second part has been running since. -/
theorem Steps.bind_cases {p : Prog Op Ans α} {f : α → Prog Op Ans β} {h : List (Call Ans)}
    {q : Prog Op Ans β} (hs : Steps (p.bind f) h q) :
    (∃ p', Steps p h p' ∧ q = p'.bind f) ∨
      ∃ a h₁ h₂, Steps p h₁ (ret a) ∧ Steps (f a) h₂ q ∧ h = h₁ ++ h₂ := by
  induction p generalizing h with
  | ret a => exact Or.inr ⟨a, [], h, Steps.refl _, hs, rfl⟩
  | panic =>
    obtain ⟨rfl, rfl⟩ := hs.of_finished trivial
    exact Or.inl ⟨panic, Steps.refl _, rfl⟩
  | op o k ih =>
    cases hs with
    | refl => exact Or.inl ⟨op o k, Steps.refl _, rfl⟩
    | @head _ _ a h q hs =>
      rw [resume_bind] at hs
      cases a with
      | none =>
        obtain ⟨rfl, rfl⟩ := hs.of_finished trivial
        exact Or.inl ⟨panic, (Steps.refl panic).head (a := none), rfl⟩
      | some a =>
        rcases ih a hs with ⟨p', hp, rfl⟩ | ⟨b, h₁, h₂, hp, hf, rfl⟩
        · exact Or.inl ⟨p', hp.head (a := some a), rfl⟩
        · exact Or.inr ⟨b, ⟨o, some a⟩ :: h₁, h₂, hp.head (a := some a), hf, rfl⟩

/-- Discarding the result changes no step. -/
theorem Steps.of_discard {p : Prog Op Ans α} {h : List (Call Ans)} {q : Prog Op Ans Unit}
    (hs : Steps p.discard h q) : ∃ p', Steps p h p' ∧ q = p'.discard := by
  rcases hs.bind_cases with hs | ⟨a, h₁, h₂, h₁s, h₂s, rfl⟩
  · exact hs
  · obtain ⟨rfl, rfl⟩ := h₂s.of_finished trivial
    exact ⟨ret a, by simpa using h₁s, rfl⟩

end Prog

end Concurrency
