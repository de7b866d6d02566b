/-
# Operations that only some answers lead to

`Prog.All P` speaks of every operation of a program, whatever it is answered.  Much of a program is
there for answers the system never gives: the panic on a lock nobody poisons, the branch for a table
that is never full.  `Prog.Within P A` says that every operation the program comes to satisfies `P`,
as long as the answers it has been given are in `A`.

`Run.within` is the circle this closes: if an invariant of the shared state makes the operations
answer within `A`, and the operations in `P` keep the invariant, then in every run the invariant
holds, every operation performed is in `P`, and every answer in `A`.
-/
import Slonk.Concurrency.Handlers

namespace Concurrency

variable {Op Op' : Type} {Ans : Op → Type} {Ans' : Op' → Type} {σ Env ε α β : Type}

namespace Prog

/-- Answered within `A`, the program performs operations in `P`. -/
def Within (P : Op → Prop) (A : ∀ o, Ans o → Prop) : Prog Op Ans α → Prop
  | ret _ => True
  | panic => True
  | op o k => P o ∧ ∀ a, A o a → (k a).Within P A

variable {P : Op → Prop} {A : ∀ o, Ans o → Prop}

/-! ## 1. Programs -/

theorem All.within {p : Prog Op Ans α} (hp : p.All P) : p.Within P A := by
  induction p with
  | ret a => trivial
  | panic => trivial
  | op o k ih => exact ⟨hp.1, fun a _ => ih a (hp.2 a)⟩

/-- **The sequence rule.** -/
theorem Within.bind {p : Prog Op Ans α} {f : α → Prog Op Ans β} (hp : p.Within P A)
    (hf : ∀ a, (f a).Within P A) : (p.bind f).Within P A := by
  induction p with
  | ret a => exact hf a
  | panic => trivial
  | op o k ih => exact ⟨hp.1, fun a ha => ih a (hp.2 a ha)⟩

theorem Within.discard {p : Prog Op Ans α} (hp : p.Within P A) : p.discard.Within P A :=
  hp.bind fun _ => trivial

/-- **A block between two operations.** -/
theorem Within.guarded {o o' : Op} {p : Ans o → Prog Op Ans α} (ho : P o)
    (hp : ∀ a, A o a → (p a).Within P A) (ho' : P o') : (guarded o p o').Within P A :=
  ⟨ho, fun a ha => (hp a ha).bind fun _ => ⟨ho', fun _ _ => trivial⟩⟩

/-- What is left after an answer within `A`, or a panic. -/
theorem Within.resume {o : Op} {k : Ans o → Prog Op Ans α} (h : (op o k).Within P A)
    {a : Option (Ans o)} (ha : ∀ x, a = some x → A o x) : (Prog.resume k a).Within P A := by
  cases a with
  | none => trivial
  | some a => exact h.2 a (ha a rfl)

/-- **Each operation as a program** that comes to what `P` allows, and only. -/
theorem Within.expand {f : ∀ o, Prog Op' Ans' (Ans o)} {P : Op' → Prop} {A : ∀ o, Ans' o → Prop}
    (hf : ∀ o, (f o).Within P A) (p : Prog Op Ans α) : (p.expand f).Within P A := by
  induction p with
  | ret a => trivial
  | panic => trivial
  | op o k ih => exact (hf o).bind fun a => ih a

/-- **Each operation as one other**, with the same answers. -/
theorem Within.rename {P' : Op' → Prop} {A' : ∀ o, Ans' o → Prop} {g : Op → Op'}
    {h : ∀ o, Ans' (g o) → Ans o} {p : Prog Op Ans α} (hp : p.Within P A)
    (hP : ∀ o, P o → P' (g o)) (hA : ∀ o a, A' (g o) a → A o (h o a)) :
    (p.expand fun o => .op (g o) fun a => .ret (h o a)).Within P' A' := by
  induction p with
  | ret a => trivial
  | panic => trivial
  | op o k ih => exact ⟨hP o hp.1, fun a ha => ih _ (hp.2 _ (hA o a ha))⟩

end Prog

namespace Fallible

variable {P : Op → Prop} {A : ∀ o, Ans o → Prop}

theorem within_bind {p : Fallible Op Ans ε α} {f : α → Fallible Op Ans ε β}
    (hp : p.run.Within P A) (hf : ∀ a, (f a).run.Within P A) : (p >>= f).run.Within P A := by
  refine Prog.Within.bind (f := onOk f) hp ?_
  rintro (e | a)
  · trivial
  · exact hf a

theorem within_loop {body : α → Fallible Op Ans ε (α ⊕ β)}
    (hbody : ∀ a, (body a).run.Within P A) :
    ∀ (n : Nat) (a : α), (loop body n a).run.Within P A
  | 0, _ => trivial
  | n + 1, a => by
    refine within_bind (hbody a) ?_
    rintro (a' | b)
    · exact within_loop hbody n a'
    · trivial

theorem within_foldlM {f : β → α → Fallible Op Ans ε β} (hf : ∀ b a, (f b a).run.Within P A) :
    ∀ (l : List α) (b : β), (l.foldlM f b).run.Within P A
  | [], _ => trivial
  | a :: l, b => by
    rw [List.foldlM_cons]
    exact within_bind (hf b a) fun b' => within_foldlM hf l b'

end Fallible

/-! ## 2. Runs -/

variable {M : Machine Op Ans σ Env} {s s' : Sys Op Ans σ} {t : List (Event Ans)} {I : σ → Prop}
  {P : Op → Prop} {A : ∀ o, Ans o → Prop}

/-- **Assume and guarantee.**  The invariant makes the answers be in `A`, answers in `A` make the
operations be in `P`, and these keep the invariant. -/
theorem Run.within
    (hexec : ∀ o env s, P o → I s → (∀ a, (M.exec o env s).1 = some a → A o a) ∧ I (M.exec o env s).2)
    (hfork : ∀ o p, P o → M.fork o = some p → p.Within P A)
    (hs : ∀ p ∈ s.threads, p.Within P A) (hI : I s.shared) (hrun : Run M s t s') :
    I s'.shared ∧ (∀ e ∈ t, P e.call.op ∧ ∀ a, e.call.ans = some a → A e.call.op a) ∧
      ∀ p ∈ s'.threads, p.Within P A := by
  induction hrun with
  | refl => exact ⟨hI, nofun, hs⟩
  | @tail s' s'' t e _ hstep ih =>
    obtain ⟨hI', ht, hs'⟩ := ih
    obtain ⟨k, env, hk, hans, hshared, -⟩ := hstep.cases
    have hop : P e.call.op := (hs' _ (List.mem_of_getElem? hk)).1
    obtain ⟨hA, hI''⟩ := hexec e.call.op env s'.shared hop hI'
    rw [← hans] at hA
    refine ⟨hshared ▸ hI'', ?_, ?_⟩
    · intro e' he'
      rcases List.mem_append.mp he' with he' | he'
      · exact ht e' he'
      · obtain rfl := List.mem_singleton.mp he'
        exact ⟨hop, hA⟩
    · intro p hp
      obtain ⟨i, hi⟩ := List.mem_iff_getElem?.mp hp
      rcases hstep.thread_cases hi with ⟨-, hp⟩ | ⟨-, k', hk', rfl⟩ | ⟨-, hp⟩
      · exact hs' p (List.mem_of_getElem? hp)
      · exact (hs' _ (List.mem_of_getElem? hk')).resume hA
      · exact hfork _ p hop hp

/-! ## 3. A thread alone -/

/-- **A thread alone** keeps what every operation its protocol permits keeps, between the state of the
protocol and the shared state. -/
theorem Run.alone {Γ : Type} {T : Protocol Op Ans Γ} {γ : Γ} {Q : α → Γ → Prop}
    {I : Γ → σ → Prop} {p : Prog Op Ans α} {s₀ : σ} (hfork : ∀ o, M.fork o = none)
    (hp : p.Follows T (fun _ _ => True) γ Q)
    (hexec : ∀ γ o env s, T.permits γ o → I γ s →
      I (T.next γ ⟨o, (M.exec o env s).1⟩) (M.exec o env s).2)
    (hI : I γ s₀) (hrun : Run M ⟨s₀, [p.discard]⟩ t s) :
    I (T.after γ (history 0 t)) s.shared ∧
      ∃ q, Prog.Steps p (history 0 t) q ∧ s.threads = [q.discard] := by
  induction hrun with
  | refl => exact ⟨hI, p, Prog.Steps.refl p, rfl⟩
  | @tail m m' t e _ hs ih =>
    obtain ⟨hI', q, hq, hthreads⟩ := ih
    obtain ⟨k, env, hk, hans, hshared, hthreads'⟩ := hs.cases
    have htid : e.tid = 0 := by
      have := hs.tid_lt
      simp only [hthreads, List.length_singleton] at this
      omega
    obtain ⟨tid, ⟨op, ans⟩⟩ := e
    obtain rfl : tid = 0 := htid
    rw [hthreads] at hk
    change some q.discard = some (Prog.op op k) at hk
    cases q with
    | ret a => cases hk
    | panic => cases hk
    | op o k' =>
      cases hk
      have hpermits : T.permits (T.after γ (history 0 t)) op := by
        rcases hp.steps hq (fun _ _ _ _ => trivial) with ⟨hpanic, -⟩ | hfollows
        · cases hpanic
        · exact hfollows.1
      have hnext := hexec _ op env m.shared hpermits hI'
      rw [← hans, ← hshared] at hnext
      rw [history_concat_self t ⟨0, ⟨op, ans⟩⟩, Protocol.after_concat]
      refine ⟨hnext, Prog.resume k' ans, hq.tail ans, ?_⟩
      rw [hthreads', hfork, hthreads]
      simp [Prog.discard, Prog.resume_bind]

end Concurrency
