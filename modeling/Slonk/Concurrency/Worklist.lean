/-
# Programs that work off a list

A program that serves requests takes them one after the other from what it has been given to do, and is
given more once in a while.  A `Worklist` says which calls take something, and which give a new list.

* A program that takes only what is first in the list (`Worklist.inOrder`) has taken a part of all that
  it was given, in order (`takes_sublist`); if it gets no new list before it is through with the old one,
  it has left nothing out (`takes_isPrefix`), and ends with nothing left if all is taken (`takes_all`).
* What the threads of a system have done together is, up to the order, what each of them has done
  (`perm_of_histories`).
-/
import Mathlib.Data.List.Perm.Subperm
import Slonk.Concurrency.Obeys

namespace Concurrency

open scoped List

variable {Op Op' : Type} {Ans : Op → Type} {Ans' : Op' → Type} {α β δ : Type}

/-- What calls take from a list of things to do, and the lists they put in its place. -/
structure Worklist (Ans : Op → Type) (β : Type) where
  takes : Call Ans → Option β
  fills : Call Ans → Option (List β)

namespace Worklist

/-- What is left to do after a call. -/
def next (K : Worklist Ans β) (γ : List β) (c : Call Ans) : List β :=
  (K.fills c).getD (if (K.takes c).isSome then γ.tail else γ)

/-- Take only what is first in the list.  Who is `strict` does not get a new one before. -/
def inOrder (K : Worklist Ans β) (strict : Prop) : Protocol Op Ans (List β) where
  permits γ o := (∀ x b, K.takes ⟨o, x⟩ = some b → γ.head? = some b) ∧
    (strict → ∀ x l, K.fills ⟨o, x⟩ = some l → γ = [])
  aborts γ := γ = []
  next := K.next

/-- The list of calls that are calls of the worklist. -/
def through (K : Worklist Ans β) (commit : Call Ans' → Option (Call Ans)) : Worklist Ans' β where
  takes c := (commit c).bind K.takes
  fills c := (commit c).bind K.fills

variable {K : Worklist Ans β} {strict : Prop} {γ : List β} {A : ∀ o, Ans o → Prop}
  {p q : Prog Op Ans α} {h : List (Call Ans)} {Q : α → List β → Prop} {c : Call Ans}

/-! ## 1. Programs -/

/-- An operation that has nothing to do with the list. -/
theorem permits_idle {o : Op} (ht : ∀ x, K.takes ⟨o, x⟩ = none) (hf : ∀ x, K.fills ⟨o, x⟩ = none) :
    (K.inOrder strict).permits γ o := by
  constructor
  · intro x b hb
    rw [ht] at hb
    cases hb
  · intro _ x l hl
    rw [hf] at hl
    cases hl

theorem next_idle (ht : K.takes c = none) (hf : K.fills c = none) :
    (K.inOrder strict).next γ c = γ := by
  simp [inOrder, next, ht, hf]

theorem filterMap_takes {commit : Call Ans' → Option (Call Ans)} (h : List (Call Ans')) :
    h.filterMap (K.through commit).takes = (h.filterMap commit).filterMap K.takes :=
  (List.filterMap_filterMap ..).symm

theorem filterMap_fills {commit : Call Ans' → Option (Call Ans)} (h : List (Call Ans')) :
    h.filterMap (K.through commit).fills = (h.filterMap commit).filterMap K.fills :=
  (List.filterMap_filterMap ..).symm

/-- A program follows the one protocol where it follows the other. -/
theorem follows_through {commit : Call Ans' → Option (Call Ans)} {A' : ∀ o, Ans' o → Prop}
    {p : Prog Op' Ans' α} (hp : p.Follows ((K.inOrder strict).through commit) A' γ Q) :
    p.Follows ((K.through commit).inOrder strict) A' γ Q := by
  refine hp.weaken ?_ (fun _ h => h) ?_
  · intro γ o h
    constructor
    · intro x b hb
      obtain ⟨c, hc, hb⟩ := Option.bind_eq_some_iff.mp hb
      exact (h x c hc).1 c.ans b hb
    · intro hs x l hl
      obtain ⟨c, hc, hl⟩ := Option.bind_eq_some_iff.mp hl
      exact (h x c hc).2 hs c.ans l hl
  · funext γ c
    cases hc : commit c with
    | none => simp [inOrder, next, through, Protocol.through, hc]
    | some c' => simp [inOrder, next, through, Protocol.through, hc]

/-- One call: what is taken was there. -/
theorem step_sublist (hc : (K.inOrder strict).permits γ c.op) {l r : List β}
    (hl : l <+ K.next γ c ++ r) :
    (K.takes c).toList ++ l <+ γ ++ ((K.fills c).toList.flatten ++ r) := by
  cases ht : K.takes c with
  | none =>
    cases hf : K.fills c with
    | none => simpa [next, ht, hf] using hl
    | some l' =>
      simp only [next, ht, hf, Option.getD_some] at hl
      simpa using hl.trans (List.sublist_append_right γ _)
  | some b =>
    obtain ⟨γ', rfl⟩ := List.head?_eq_some_iff.mp (hc.1 c.ans b ht)
    cases hf : K.fills c with
    | none => simpa [next, ht, hf] using hl
    | some l' =>
      simp only [next, hf, Option.getD_some] at hl
      simpa using hl.trans (List.sublist_append_right γ' _)

/-- **What it has taken** it was given, in this order. -/
theorem takes_sublist (hp : p.Follows (K.inOrder strict) A γ Q) (hs : Prog.Steps p h q)
    (hA : ∀ c ∈ h, ∀ a, c.ans = some a → A c.op a) :
    h.filterMap K.takes <+ γ ++ (h.filterMap K.fills).flatten := by
  have hcons : ∀ {c : Call Ans} {h : List (Call Ans)} {γ : List β},
      (K.inOrder strict).permits γ c.op →
      h.filterMap K.takes <+ K.next γ c ++ (h.filterMap K.fills).flatten →
      (c :: h).filterMap K.takes <+ γ ++ ((c :: h).filterMap K.fills).flatten := by
    intro c h γ hc hrest
    have := step_sublist hc hrest
    cases ht : K.takes c <;> cases hf : K.fills c <;> simpa [ht, hf] using this
  induction hs generalizing γ with
  | refl p => simp
  | @head o k a h q hs ih =>
    rw [List.forall_mem_cons] at hA
    refine hcons hp.1 ?_
    cases a with
    | some a => exact ih (hp.2 a (hA.1 a rfl)) hA.2
    | none =>
      obtain ⟨rfl, rfl⟩ := hs.of_finished trivial
      simp

/-- One call of who is strict. -/
theorem step_eq (hstrict : strict) (hc : (K.inOrder strict).permits γ c.op) :
    (K.takes c).toList ++ K.next γ c = γ ++ (K.fills c).toList.flatten := by
  cases ht : K.takes c with
  | none =>
    cases hf : K.fills c with
    | none => simp [next, ht, hf]
    | some l =>
      obtain rfl := hc.2 hstrict c.ans l hf
      simp [next, hf]
  | some b =>
    obtain ⟨γ', rfl⟩ := List.head?_eq_some_iff.mp (hc.1 c.ans b ht)
    cases hf : K.fills c with
    | none => simp [next, ht, hf]
    | some l => cases hc.2 hstrict c.ans l hf

/-- What who is strict has taken, and what is left to do, is what there was to do. -/
theorem takes_append_after (hstrict : strict) (hp : p.Follows (K.inOrder strict) A γ Q)
    (hs : Prog.Steps p h q) (hA : ∀ c ∈ h, ∀ a, c.ans = some a → A c.op a) :
    h.filterMap K.takes ++ (K.inOrder strict).after γ h = γ ++ (h.filterMap K.fills).flatten := by
  induction hs generalizing γ with
  | refl p => simp
  | @head o k a h q hs ih =>
    rw [List.forall_mem_cons] at hA
    have hrest : h.filterMap K.takes ++ (K.inOrder strict).after (K.next γ ⟨o, a⟩) h
        = K.next γ ⟨o, a⟩ ++ (h.filterMap K.fills).flatten := by
      cases a with
      | some a => exact ih (hp.2 a (hA.1 a rfl)) hA.2
      | none =>
        obtain ⟨rfl, rfl⟩ := hs.of_finished trivial
        simp
    have htakes : (⟨o, a⟩ :: h : List (Call Ans)).filterMap K.takes
        = (K.takes ⟨o, a⟩).toList ++ h.filterMap K.takes := by
      cases ht : K.takes ⟨o, a⟩ <;> simp [ht]
    have hfills : ((⟨o, a⟩ :: h : List (Call Ans)).filterMap K.fills).flatten
        = (K.fills ⟨o, a⟩).toList.flatten ++ (h.filterMap K.fills).flatten := by
      cases hf : K.fills ⟨o, a⟩ <;> simp [hf]
    calc (⟨o, a⟩ :: h : List (Call Ans)).filterMap K.takes ++ (K.inOrder strict).after γ (⟨o, a⟩ :: h)
        = (K.takes ⟨o, a⟩).toList ++ (K.next γ ⟨o, a⟩ ++ (h.filterMap K.fills).flatten) := by
          rw [htakes, Protocol.after_cons, List.append_assoc]
          exact congrArg _ hrest
      _ = γ ++ ((⟨o, a⟩ :: h : List (Call Ans)).filterMap K.fills).flatten := by
          rw [← List.append_assoc, step_eq hstrict hp.1, hfills, List.append_assoc]

/-- **Nothing is left out** by who is strict. -/
theorem takes_isPrefix (hstrict : strict) (hp : p.Follows (K.inOrder strict) A γ Q)
    (hs : Prog.Steps p h q) (hA : ∀ c ∈ h, ∀ a, c.ans = some a → A c.op a) :
    h.filterMap K.takes <+: γ ++ (h.filterMap K.fills).flatten :=
  ⟨_, takes_append_after hstrict hp hs hA⟩

/-- **Nothing is left undone** by a program that is strict, has come to its end with nothing left, and
in which no operation has panicked. -/
theorem takes_all (hstrict : strict) (hp : p.Follows (K.inOrder strict) A γ fun _ γ' => γ' = [])
    (hs : Prog.Steps p h q) (hq : q.Finished) (hA : ∀ c ∈ h, ∀ a, c.ans = some a → A c.op a)
    (hans : ∀ c ∈ h, c.ans ≠ none) : h.filterMap K.takes = γ ++ (h.filterMap K.fills).flatten := by
  have hnil : (K.inOrder strict).after γ h = [] := by
    rcases hp.steps hs hA with ⟨-, c, hc, hnone⟩ | hfollows
    · exact absurd hnone (hans c hc)
    · cases q with
      | ret a => exact hfollows
      | panic => exact hfollows
      | op o k => exact hq.elim
  have happend := takes_append_after hstrict hp hs hA
  rwa [hnil, List.append_nil] at happend

end Worklist

/-! ## 2. Lists -/

/-- A filtered list with something else in the place of its elements. -/
theorem length_filterMap_map {f : α → Option β} {g : α → δ} (l : List α) :
    (l.filterMap fun a => (f a).map fun _ => g a).length = (l.filterMap f).length := by
  induction l with
  | nil => rfl
  | cons a l ih => cases ha : f a <;> simp [ha, ih]

theorem getElem?_filterMap_map {f : α → Option β} {g : α → δ} {l : List α} {n : Nat} {b : β}
    (h : (l.filterMap f)[n]? = some b) :
    ∃ a ∈ l, f a = some b ∧ (l.filterMap fun a => (f a).map fun _ => g a)[n]? = some (g a) := by
  obtain ⟨l₁, a, l₂, rfl, rfl, ha⟩ := split_of_filterMap h
  have hlength := length_filterMap_map (f := f) (g := g) l₁
  refine ⟨a, by simp, ha, ?_⟩
  rw [List.filterMap_append, List.getElem?_append_right hlength.le, hlength, Nat.sub_self]
  simp [ha]

/-- Two filters of which at most one lets an element through. -/
theorem filterMap_or_perm {f g : α → Option β} (h : ∀ a, f a = none ∨ g a = none) (l : List α) :
    l.filterMap f ++ l.filterMap g ~ l.filterMap fun a => (f a).or (g a) := by
  induction l with
  | nil => exact .refl _
  | cons a l ih =>
    cases hf : f a with
    | none =>
      cases hg : g a with
      | none => simpa [hf, hg] using ih
      | some b => simpa [hf, hg] using List.perm_middle.trans (ih.cons b)
    | some b =>
      have hg : g a = none := (h a).resolve_left (by simp [hf])
      simpa [hf, hg] using ih.cons b

theorem flatMap_range_single (l : List β) {n j : Nat} (hj : j < n) :
    ((List.range n).flatMap fun i => if j = i then l else []) = l := by
  induction n with
  | zero => omega
  | succ n ih =>
    rw [List.range_succ, List.flatMap_append]
    rcases Nat.lt_or_ge j n with h | h
    · have hne : j ≠ n := by omega
      simp [ih h, hne]
    · obtain rfl : j = n := by omega
      have hnil : ((List.range j).flatMap fun i => if j = i then l else []) = [] := by
        rw [List.flatMap_eq_nil_iff]
        intro i hi
        have := List.mem_range.mp hi
        exact if_neg (by omega)
      simp [hnil]

theorem flatMap_range_getD (ls : List (List β)) :
    ((List.range ls.length).flatMap fun i => ls.getD i []) = ls.flatten := by
  rw [List.flatMap_def]
  refine congrArg List.flatten (List.ext_getElem (by simp) fun i _ hi => ?_)
  simp [hi]

theorem flatMap_subperm {l : List α} {f g : α → List β} (h : ∀ a ∈ l, f a <+~ g a) :
    l.flatMap f <+~ l.flatMap g := by
  induction l with
  | nil => simp
  | cons a l ih =>
    rw [List.forall_mem_cons] at h
    rw [List.flatMap_cons, List.flatMap_cons]
    exact h.1.append (ih h.2)

/-! ## 3. Threads -/

theorem forall_mem_history {P : Call Ans → Prop} {t : List (Event Ans)} {i : Nat}
    (h : ∀ e ∈ t, e.tid = i → P e.call) : ∀ c ∈ history i t, P c := by
  intro c hc
  obtain ⟨e, he, hi, rfl⟩ := mem_history.mp hc
  exact h e he hi

/-- Where only one thread makes calls of a kind. -/
theorem filterMap_history {f : Call Ans → Option β} {t : List (Event Ans)} {i : Nat}
    (h : ∀ e ∈ t, e.tid ≠ i → f e.call = none) :
    (t.filterMap fun e => f e.call) = (history i t).filterMap f := by
  rw [history, List.filterMap_filterMap]
  refine List.filterMap_congr fun e he => ?_
  by_cases hi : e.tid = i
  · simp [hi]
  · simp [hi, h e he hi]

/-- **The calls of a run** are those of its threads. -/
theorem perm_histories (f : Call Ans → Option β) {n : Nat} : ∀ {t : List (Event Ans)},
    (∀ e ∈ t, e.tid < n) →
    (t.filterMap fun e => f e.call) ~ (List.range n).flatMap fun i => (history i t).filterMap f
  | [], _ => by simp [history]
  | e :: t, h => by
    rw [List.forall_mem_cons] at h
    have hhistory : ∀ i, (history i (e :: t)).filterMap f
        = (if e.tid = i then (f e.call).toList else []) ++ (history i t).filterMap f := by
      intro i
      by_cases hi : e.tid = i
      · cases hf : f e.call <;> simp [history, hi, hf]
      · simp [history, hi]
    have hhead : ((e :: t).filterMap fun e => f e.call)
        = (f e.call).toList ++ t.filterMap fun e => f e.call := by
      cases hf : f e.call <;> simp [hf]
    simp only [hhistory]
    rw [hhead]
    refine ((perm_histories f h.2).append_left _).trans ?_
    have := List.flatMap_append_perm (List.range n)
      (fun i => if e.tid = i then (f e.call).toList else []) fun i => (history i t).filterMap f
    rwa [flatMap_range_single _ h.1] at this

variable {f : Call Ans → Option β} {t : List (Event Ans)} {dues : List (List β)}

/-- If each thread has made a part of what is its due, so have all together. -/
theorem subperm_of_histories (htid : ∀ e ∈ t, e.tid < dues.length)
    (h : ∀ i, i < dues.length → (history i t).filterMap f <+~ dues.getD i []) :
    (t.filterMap fun e => f e.call) <+~ dues.flatten := by
  rw [← flatMap_range_getD]
  exact (perm_histories f htid).subperm.trans
    (flatMap_subperm fun i hi => h i (List.mem_range.mp hi))

/-- And if each has made all of it. -/
theorem perm_of_histories (htid : ∀ e ∈ t, e.tid < dues.length)
    (h : ∀ i, i < dues.length → (history i t).filterMap f ~ dues.getD i []) :
    (t.filterMap fun e => f e.call) ~ dues.flatten := by
  rw [← flatMap_range_getD]
  exact (perm_histories f htid).trans (.flatMap_left _ fun i hi => h i (List.mem_range.mp hi))

end Concurrency
