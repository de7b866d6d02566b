/-
# Programs that may fail

A program that returns a result or an error, whose sequencing is "go on if it succeeded, return
the error otherwise".  `call` is one operation, `abort` a panic, and `thenAlways` an operation that
is performed on every way out of a block: the drop of a guard.

The rules carry the judgements about programs (`Follows`, `All`, `Spec`) through that sequencing.
-/
import Slonk.Concurrency.Locks
import Slonk.Concurrency.Solo

namespace Concurrency

/-- A program that may fail with an `ε`. -/
abbrev Fallible (Op : Type) (Ans : Op → Type) (ε α : Type) := ExceptT ε (Prog Op Ans) α

variable {Op : Type} {Ans : Op → Type} {σ Env Γ ε α β : Type}

namespace Fallible

/-- One operation. -/
def call (o : Op) : Fallible Op Ans ε (Ans o) := ExceptT.mk (.op o fun a => .ret (.ok a))

/-- One operation that answers with a result or an error. -/
def attempt (o : Op) (f : Ans o → Except ε α) : Fallible Op Ans ε α :=
  ExceptT.mk (.op o fun a => .ret (f a))

/-- A panic. -/
def abort : Fallible Op Ans ε α := ExceptT.mk .panic

/-- The block, and then the operation, whether the block succeeded or failed. -/
def thenAlways (p : Fallible Op Ans ε α) (o : Op) : Fallible Op Ans ε α :=
  ExceptT.mk (p.run.bind fun r => .op o fun _ => .ret r)

/-- A block between two operations, whether it succeeds or fails. -/
def guarded (o : Op) (body : Ans o → Fallible Op Ans ε α) (o' : Op) : Fallible Op Ans ε α :=
  ExceptT.mk (Prog.guarded o (fun a => (body a).run) o')

/-- At most so many turns of a loop.  A turn says how to go on, or that the loop is left; a loop
that still goes on after its last turn returns where it is. -/
def loop (body : α → Fallible Op Ans ε (α ⊕ β)) : Nat → α → Fallible Op Ans ε (α ⊕ β)
  | 0, a => pure (.inl a)
  | n + 1, a => do
    match ← body a with
    | .inl a => loop body n a
    | .inr b => pure (.inr b)

/-- So many turns, and then so many more. -/
theorem loop_add (body : α → Fallible Op Ans ε (α ⊕ β)) (n : Nat) :
    ∀ (m : Nat) (a : α), loop body (m + n) a
      = loop body m a >>= Sum.elim (loop body n) fun b => pure (.inr b)
  | 0, a => by
    have hout : (pure (.inl a) : Fallible Op Ans ε (α ⊕ β)) >>=
        (Sum.elim (loop body n) fun b => pure (.inr b)) = loop body n a := pure_bind _ _
    rw [Nat.zero_add]
    exact hout.symm
  | m + 1, a => by
    have hleft : ∀ b, (pure (.inr b) : Fallible Op Ans ε (α ⊕ β)) >>=
        (Sum.elim (loop body n) fun b => pure (.inr b)) = pure (.inr b) := fun b => pure_bind _ _
    rw [Nat.add_right_comm]
    unfold loop
    rw [bind_assoc]
    refine bind_congr fun r => ?_
    cases r with
    | inl a' => exact loop_add body n m a'
    | inr b => exact (hleft b).symm

/-- What follows a result: the rest, or the error. -/
def onOk (f : α → Fallible Op Ans ε β) : Except ε α → Prog Op Ans (Except ε β)
  | .ok a => (f a).run
  | .error e => .ret (.error e)

@[simp] theorem onOk_ok (f : α → Fallible Op Ans ε β) (a : α) : onOk f (.ok a) = (f a).run := rfl

@[simp] theorem onOk_error (f : α → Fallible Op Ans ε β) (e : ε) :
    onOk f (.error e) = .ret (.error e) := rfl

theorem run_bind (p : Fallible Op Ans ε α) (f : α → Fallible Op Ans ε β) :
    (p >>= f).run = p.run.bind (onOk f) := rfl

theorem all_bind {P : Op → Prop} {p : Fallible Op Ans ε α} {f : α → Fallible Op Ans ε β}
    (hp : p.run.All P) (hf : ∀ a, (f a).run.All P) : (p >>= f).run.All P := by
  refine Prog.All.bind (f := onOk f) hp ?_
  rintro (e | a)
  · trivial
  · exact hf a

theorem noPanic_bind {p : Fallible Op Ans ε α} {f : α → Fallible Op Ans ε β}
    (hp : p.run.NoPanic) (hf : ∀ a, (f a).run.NoPanic) : (p >>= f).run.NoPanic := by
  refine Prog.NoPanic.bind (f := onOk f) hp ?_
  rintro (e | a)
  · trivial
  · exact hf a

theorem noPanic_loop {body : α → Fallible Op Ans ε (α ⊕ β)} (hbody : ∀ a, (body a).run.NoPanic) :
    ∀ (n : Nat) (a : α), (loop body n a).run.NoPanic
  | 0, _ => trivial
  | n + 1, a => by
    refine noPanic_bind (hbody a) ?_
    rintro (a' | b)
    · exact noPanic_loop hbody n a'
    · trivial

theorem noPanic_foldlM {f : β → α → Fallible Op Ans ε β} (hf : ∀ b a, (f b a).run.NoPanic) :
    ∀ (l : List α) (b : β), (l.foldlM f b).run.NoPanic
  | [], _ => trivial
  | a :: l, b => by
    rw [List.foldlM_cons]
    exact noPanic_bind (hf b a) fun b' => noPanic_foldlM hf l b'

/-- **A sequence that has finished**: its first part panicked or failed, and so did the whole; or it
gave a result, and the rest has finished since. -/
theorem steps_bind {p : Fallible Op Ans ε α} {f : α → Fallible Op Ans ε β} {h : List (Call Ans)}
    {q : Prog Op Ans (Except ε β)} (hs : Prog.Steps (p >>= f).run h q) (hq : q.Finished) :
    (Prog.Steps p.run h .panic ∧ q = .panic) ∨
      (∃ e, Prog.Steps p.run h (.ret (.error e)) ∧ q = .ret (.error e)) ∨
      ∃ a h₁ h₂, Prog.Steps p.run h₁ (.ret (.ok a)) ∧ Prog.Steps (f a).run h₂ q ∧
        h = h₁ ++ h₂ := by
  rw [run_bind] at hs
  rcases hs.bind_cases with ⟨p', hp, rfl⟩ | ⟨r, h₁, h₂, hp, hf, rfl⟩
  · cases p' with
    | op o k => exact hq.elim
    | panic => exact .inl ⟨hp, rfl⟩
    | ret r =>
      cases r with
      | error e => exact .inr (.inl ⟨e, hp, rfl⟩)
      | ok a => exact .inr (.inr ⟨a, h, [], hp, .refl _, by simp⟩)
  · cases r with
    | error e =>
      obtain ⟨rfl, rfl⟩ := hf.of_finished trivial
      exact .inr (.inl ⟨e, by simpa using hp, rfl⟩)
    | ok a => exact .inr (.inr ⟨a, h₁, h₂, hp, hf, rfl⟩)

/-! ## 1. Protocols -/

variable {T : Protocol Op Ans Γ} {A : ∀ o, Ans o → Prop} {γ : Γ}

/-- **Sequencing.** -/
theorem follows_bind {p : Fallible Op Ans ε α} {f : α → Fallible Op Ans ε β}
    {Q : Except ε β → Γ → Prop} {Q₀ : Except ε α → Γ → Prop} (hp : p.run.Follows T A γ Q₀)
    (hok : ∀ a γ', Q₀ (.ok a) γ' → (f a).run.Follows T A γ' Q)
    (herr : ∀ e γ', Q₀ (.error e) γ' → Q (.error e) γ') : (p >>= f).run.Follows T A γ Q := by
  refine Prog.Follows.bind (f := onOk f) (hp.mono ?_)
  rintro (e | a) γ' h
  · exact herr e γ' h
  · exact hok a γ' h

/-- **A guard** is given back on every way out. -/
theorem follows_thenAlways {p : Fallible Op Ans ε α} {o : Op} {Q Q₀ : Except ε α → Γ → Prop}
    (hp : p.run.Follows T A γ Q₀) (hpermits : ∀ r γ', Q₀ r γ' → T.permits γ' o)
    (hnext : ∀ r γ' a, Q₀ r γ' → A o a → Q r (T.next γ' ⟨o, some a⟩)) :
    (p.thenAlways o).run.Follows T A γ Q := by
  refine Prog.Follows.bind (hp.mono fun r γ' h => ?_)
  exact ⟨hpermits r γ' h, fun a ha => hnext r γ' a h ha⟩

/-- What follows a turn of a loop. -/
def Turns (I : α → Γ → Prop) (Q : Except ε (α ⊕ β) → Γ → Prop) (r : Except ε (α ⊕ β)) (γ : Γ) :
    Prop :=
  match r with
  | .ok (.inl a) => I a γ
  | r => Q r γ

/-- **The loop rule.**  `I` holds at the head of each turn; it is `Q` that holds where the loop is
left. -/
theorem follows_loop {I : α → Γ → Prop} {Q : Except ε (α ⊕ β) → Γ → Prop}
    {body : α → Fallible Op Ans ε (α ⊕ β)}
    (hbody : ∀ a γ, I a γ → (body a).run.Follows T A γ (Turns I Q))
    (hout : ∀ a γ, I a γ → Q (.ok (.inl a)) γ) :
    ∀ (n : Nat) {a : α} {γ : Γ}, I a γ → (loop body n a).run.Follows T A γ Q
  | 0, a, γ, h => hout a γ h
  | n + 1, a, γ, h => by
    refine follows_bind (hbody a γ h) ?_ ?_
    · rintro (a' | b) γ' h'
      · exact follows_loop hbody hout n h'
      · exact h'
    · exact fun e γ' h' => h'

/-! ## 2. Locks -/

section Locks

variable {Lock : Type} [DecidableEq Lock] {L : Locking Op Lock} {R : Lock → Lock → Prop}
  {P : Op → Prop} {held : List (Lock × Mode)}

theorem keeps_bind {p : Fallible Op Ans ε α} {f : α → Fallible Op Ans ε β}
    (hp : L.Keeps R P A held p.run) (hf : ∀ a, L.Keeps R P A held (f a).run) :
    L.Keeps R P A held (p >>= f).run := by
  refine Locking.Keeps.bind (f := onOk f) hp ?_
  rintro (e | a)
  · exact .ret _
  · exact hf a

theorem keeps_loop {body : α → Fallible Op Ans ε (α ⊕ β)}
    (hbody : ∀ a, L.Keeps R P A held (body a).run) :
    ∀ (n : Nat) (a : α), L.Keeps R P A held (loop body n a).run
  | 0, _ => .ret _
  | n + 1, a => by
    refine keeps_bind (hbody a) ?_
    rintro (a' | b)
    · exact keeps_loop hbody n a'
    · exact .ret _

theorem keeps_foldlM {f : β → α → Fallible Op Ans ε β}
    (hf : ∀ b a, L.Keeps R P A held (f b a).run) :
    ∀ (l : List α) (b : β), L.Keeps R P A held (l.foldlM f b).run
  | [], _ => .ret _
  | a :: l, b => by
    rw [List.foldlM_cons]
    exact keeps_bind (hf b a) fun b' => keeps_foldlM hf l b'

end Locks

/-! ## 3. Specifications -/

variable {M : Machine Op Ans σ Env} {E : Env → Prop} {s : σ}

/-- Under decisions in `E` the program returns a result, and `Q` holds of it. -/
def Succeeds (M : Machine Op Ans σ Env) (E : Env → Prop) (p : Fallible Op Ans ε α) (s : σ)
    (Q : α → List (Call Ans) → σ → Prop) : Prop :=
  Spec M E p.run s fun r h s' => ∃ a, r = .ok a ∧ Q a h s'

theorem Succeeds.pure {a : α} {Q : α → List (Call Ans) → σ → Prop} (h : Q a [] s) :
    Succeeds M E (pure a : Fallible Op Ans ε α) s Q := Spec.ret ⟨a, rfl, h⟩

theorem Succeeds.mono {p : Fallible Op Ans ε α} {Q Q' : α → List (Call Ans) → σ → Prop}
    (h : Succeeds M E p s Q) (hQ : ∀ a h s', Q a h s' → Q' a h s') : Succeeds M E p s Q' := by
  refine Spec.mono h ?_
  rintro r h s' ⟨a, rfl, hq⟩
  exact ⟨a, rfl, hQ a h s' hq⟩

/-- **Sequencing.** -/
theorem Succeeds.bind {p : Fallible Op Ans ε α} {f : α → Fallible Op Ans ε β}
    {Q : β → List (Call Ans) → σ → Prop}
    (hp : Succeeds M E p s fun a h s' =>
      Succeeds M E (f a) s' fun b h' s'' => Q b (h ++ h') s'') :
    Succeeds M E (p >>= f) s Q := by
  refine Spec.bind (f := onOk f) (Spec.mono hp ?_)
  rintro r h s' ⟨a, rfl, hf⟩
  exact hf

/-- One operation that succeeds, with an effect that is known. -/
theorem Succeeds.attempt {o : Op} {f : Ans o → Except ε α} {Q : α → List (Call Ans) → σ → Prop}
    (h : ∀ env, E env → ∃ a s' b, M.exec o env s = (some a, s') ∧ f a = .ok b ∧
      Q b [⟨o, some a⟩] s') : Succeeds M E (Fallible.attempt o f) s Q := by
  refine Spec.op_eq fun env henv => ?_
  obtain ⟨a, s', b, hexec, hf, hQ⟩ := h env henv
  exact ⟨a, s', hexec, Spec.ret ⟨b, hf, hQ⟩⟩

/-- A guard given back. -/
theorem Succeeds.thenAlways {p : Fallible Op Ans ε α} {o : Op}
    {Q : α → List (Call Ans) → σ → Prop}
    (hp : Succeeds M E p s fun a h s' => ∀ env, E env →
      ∃ x s'', M.exec o env s' = (some x, s'') ∧ Q a (h ++ [⟨o, some x⟩]) s'') :
    Succeeds M E (p.thenAlways o) s Q := by
  refine Spec.bind (Spec.mono hp ?_)
  rintro r h s' ⟨a, rfl, hexec⟩
  refine Spec.op_eq fun env henv => ?_
  obtain ⟨x, s'', hx, hQ⟩ := hexec env henv
  exact ⟨x, s'', hx, Spec.ret ⟨a, rfl, hQ⟩⟩

end Fallible

end Concurrency
