/-
# Protocols kept from every state

A part that can be entered in any state of a protocol, such as the turn of a loop that serves one
request after the other, has nothing to hand on to what follows.  `p.Obeys T` says so: from whatever
state of `T`, the program performs only what `T` permits.  It sequences without a condition in
between, and in a system of such programs every event is permitted (`Run.obeys`).

A protocol over some operations is one over others, of which some calls are calls of the first
(`Protocol.through`).  A program follows it when its operations are replaced by programs that make the
same call (`Follows.expand`).
-/
import Slonk.Concurrency.Fallible
import Slonk.Concurrency.Handlers

namespace Concurrency

variable {Op Op' : Type} {Ans : Op → Type} {Ans' : Op' → Type} {Γ σ Env ε α β : Type}

/-- The protocol over other operations. -/
def Protocol.through (T : Protocol Op Ans Γ) (commit : Call Ans' → Option (Call Ans)) :
    Protocol Op' Ans' Γ where
  permits γ o := ∀ x c, commit ⟨o, x⟩ = some c → T.permits γ c.op
  aborts := T.aborts
  next γ c := (commit c).elim γ (T.next γ)

section Through

variable {T : Protocol Op Ans Γ} {commit : Call Ans' → Option (Call Ans)} {γ : Γ} {o : Op'}

theorem Protocol.through_after (h : List (Call Ans')) :
    (T.through commit).after γ h = T.after γ (h.filterMap commit) := by
  induction h generalizing γ with
  | nil => rfl
  | cons c h ih =>
    rw [Protocol.after_cons, ih]
    cases hc : commit c with
    | none => simp [Protocol.through, hc]
    | some c' => simp [Protocol.through, hc]

/-- An operation that is no call of the first. -/
theorem Protocol.permits_silent (h : ∀ x, commit ⟨o, x⟩ = none) : (T.through commit).permits γ o := by
  intro x c hc
  rw [h] at hc
  cases hc

theorem Protocol.next_silent {x : Option (Ans' o)} (h : commit ⟨o, x⟩ = none) :
    (T.through commit).next γ ⟨o, x⟩ = γ := by
  simp [Protocol.through, h]

end Through

namespace Prog

variable {T : Protocol Op Ans Γ} {T' : Protocol Op' Ans' Γ} {A : ∀ o, Ans o → Prop}
  {A' : ∀ o, Ans' o → Prop} {γ : Γ}

/-- **Each operation as a program** that comes to the same state of the protocol. -/
theorem Follows.expand {f : ∀ o, Prog Op' Ans' (Ans o)} (haborts : ∀ γ, T.aborts γ → T'.aborts γ)
    (hf : ∀ o γ, T.permits γ o →
      (f o).Follows T' A' γ fun a γ' => A o a ∧ γ' = T.next γ ⟨o, some a⟩)
    {p : Prog Op Ans α} {Q : α → Γ → Prop} (hp : p.Follows T A γ Q) :
    (p.expand f).Follows T' A' γ Q := by
  induction p generalizing γ with
  | ret a => exact hp
  | panic => exact haborts γ hp
  | op o k ih =>
    refine Follows.bind ((hf o γ hp.1).mono ?_)
    rintro a _ ⟨ha, rfl⟩
    exact ih a (hp.2 a ha)

/-- **An invariant of the protocol's state** under which these operations are permitted, and a panic
too if the program may come to one. -/
theorem All.follows_invariant {P : Op → Prop} {I : Γ → Prop} {p : Prog Op Ans α} (hp : p.All P)
    (hpermits : ∀ γ o, P o → I γ → T.permits γ o)
    (hnext : ∀ γ o a, P o → I γ → I (T.next γ ⟨o, some a⟩))
    (haborts : ∀ γ, I γ → ¬ p.NoPanic → T.aborts γ) (hγ : I γ) :
    p.Follows T A γ fun _ γ' => I γ' := by
  induction p generalizing γ with
  | ret a => exact hγ
  | panic => exact haborts γ hγ id
  | op o k ih =>
    refine ⟨hpermits γ o hp.1 hγ, fun a _ => ih a (hp.2 a) (fun γ' h hn => ?_) (hnext γ o a hp.1 hγ)⟩
    exact haborts γ' h fun h => hn (h a)

/-- **From every state** the program performs only what the protocol permits. -/
def Obeys (T : Protocol Op Ans Γ) (p : Prog Op Ans α) : Prop :=
  ∀ γ, p.Follows T (fun _ _ => True) γ fun _ _ => True

theorem Obeys.ret (a : α) : (Prog.ret a : Prog Op Ans α).Obeys T := fun _ => trivial

theorem Obeys.op {o : Op} {k : Ans o → Prog Op Ans α} (ho : ∀ γ, T.permits γ o)
    (hk : ∀ a, (k a).Obeys T) : (Prog.op o k).Obeys T :=
  fun γ => ⟨ho γ, fun a _ => hk a _⟩

theorem Obeys.bind {p : Prog Op Ans α} {f : α → Prog Op Ans β} (hp : p.Obeys T)
    (hf : ∀ a, (f a).Obeys T) : (p.bind f).Obeys T :=
  fun γ => Follows.bind ((hp γ).mono fun a γ' _ => hf a γ')

theorem Obeys.discard {p : Prog Op Ans α} (hp : p.Obeys T) : p.discard.Obeys T :=
  hp.bind fun _ => .ret ()

/-- Operations that are permitted in every state. -/
theorem All.obeys {P : Op → Prop} {p : Prog Op Ans α} (hp : p.All P)
    (hP : ∀ γ o, P o → T.permits γ o) (haborts : ∀ γ, ¬ p.NoPanic → T.aborts γ) : p.Obeys T :=
  fun _ => (hp.follows_invariant (I := fun _ => True) (fun γ o ho _ => hP γ o ho)
    (fun _ _ _ _ _ => trivial) (fun γ _ => haborts γ) trivial).mono fun _ _ _ => trivial

end Prog

namespace Fallible

variable {T : Protocol Op Ans Γ}

theorem obeys_bind {p : Fallible Op Ans ε α} {f : α → Fallible Op Ans ε β} (hp : p.run.Obeys T)
    (hf : ∀ a, (f a).run.Obeys T) : (p >>= f).run.Obeys T := by
  refine Prog.Obeys.bind (f := onOk f) hp ?_
  rintro (e | a)
  · exact .ret _
  · exact hf a

theorem obeys_loop {body : α → Fallible Op Ans ε (α ⊕ β)} (hbody : ∀ a, (body a).run.Obeys T) :
    ∀ (n : Nat) (a : α), (loop body n a).run.Obeys T
  | 0, _ => .ret _
  | n + 1, a => by
    refine obeys_bind (hbody a) ?_
    rintro (a' | b)
    · exact obeys_loop hbody n a'
    · exact .ret _

end Fallible

end Concurrency
