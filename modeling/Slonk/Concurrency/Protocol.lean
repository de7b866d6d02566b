/-
# Programs that follow a protocol

What a program may do next often depends on what it has done: release only what it holds, ask
for a lock only in a certain order, answer a request before taking the next one.  A `Protocol`
keeps a state of the program's calls so far and says which operations that state permits.
`Prog.Follows T A γ p Q` is about the program only: from the protocol state `γ`, as long as its
operations are answered as `A` allows, the program performs nothing the protocol does not permit,
and `Q` relates what it returns to the state it returns in.

`Prog.Follows.steps` brings it to a thread: whatever the other threads do, what is left of the
thread's program follows the protocol from the state its own history leads to.  `Run.follows` does
so for every thread of a system, the ones started on the way included.
-/
import Slonk.Concurrency.Threads

namespace Concurrency

variable {Op : Type} {Ans : Op → Type} {σ Env Γ α β : Type}

/-- A state of the calls made so far, the operations it permits, and whether it permits a
panic. -/
structure Protocol (Op : Type) (Ans : Op → Type) (Γ : Type) where
  permits : Γ → Op → Prop
  aborts : Γ → Prop
  next : Γ → Call Ans → Γ

/-- The state after a list of calls. -/
def Protocol.after (T : Protocol Op Ans Γ) (γ : Γ) (h : List (Call Ans)) : Γ := h.foldl T.next γ

@[simp] theorem Protocol.after_nil (T : Protocol Op Ans Γ) (γ : Γ) : T.after γ [] = γ := rfl

@[simp] theorem Protocol.after_cons (T : Protocol Op Ans Γ) (γ : Γ) (c : Call Ans)
    (h : List (Call Ans)) : T.after γ (c :: h) = T.after (T.next γ c) h := rfl

@[simp] theorem Protocol.after_concat (T : Protocol Op Ans Γ) (γ : Γ) (h : List (Call Ans))
    (c : Call Ans) : T.after γ (h ++ [c]) = T.next (T.after γ h) c := by
  simp [Protocol.after]

/-- From `γ`, answered as `A` allows, the program performs only what the protocol permits, and
returns with `Q`. -/
def Prog.Follows (T : Protocol Op Ans Γ) (A : ∀ o, Ans o → Prop) :
    Γ → Prog Op Ans α → (α → Γ → Prop) → Prop
  | γ, .ret a, Q => Q a γ
  | γ, .panic, _ => T.aborts γ
  | γ, .op o k, Q => T.permits γ o ∧
      ∀ a, A o a → Prog.Follows T A (T.next γ ⟨o, some a⟩) (k a) Q

namespace Prog

variable {T : Protocol Op Ans Γ} {A : ∀ o, Ans o → Prop} {γ : Γ}

/-! ## 1. Programs -/

theorem Follows.mono {p : Prog Op Ans α} {Q Q' : α → Γ → Prop} (hp : p.Follows T A γ Q)
    (h : ∀ a γ', Q a γ' → Q' a γ') : p.Follows T A γ Q' := by
  induction p generalizing γ with
  | ret a => exact h a γ hp
  | panic => exact hp
  | op o k ih => exact ⟨hp.1, fun a ha => ih a (hp.2 a ha)⟩

/-- A protocol that permits more. -/
theorem Follows.weaken {T' : Protocol Op Ans Γ} {p : Prog Op Ans α} {Q : α → Γ → Prop}
    (hp : p.Follows T A γ Q) (hpermits : ∀ γ o, T.permits γ o → T'.permits γ o)
    (haborts : ∀ γ, T.aborts γ → T'.aborts γ) (hnext : T'.next = T.next) :
    p.Follows T' A γ Q := by
  induction p generalizing γ with
  | ret a => exact hp
  | panic => exact haborts γ hp
  | op o k ih =>
    refine ⟨hpermits γ o hp.1, fun a ha => ?_⟩
    rw [hnext]
    exact ih a (hp.2 a ha)

/-- What the protocol permits in any state holds of every operation. -/
theorem Follows.all {P : Op → Prop} {p : Prog Op Ans α} {Q : α → Γ → Prop}
    (hp : p.Follows T (fun _ _ => True) γ Q) (h : ∀ γ o, T.permits γ o → P o) : p.All P := by
  induction p generalizing γ with
  | ret a => trivial
  | panic => trivial
  | op o k ih => exact ⟨h γ o hp.1, fun a => ih a (hp.2 a trivial)⟩

/-- **The sequence rule.** -/
theorem Follows.bind {p : Prog Op Ans α} {f : α → Prog Op Ans β} {Q : β → Γ → Prop}
    (hp : p.Follows T A γ fun a γ' => (f a).Follows T A γ' Q) : (p.bind f).Follows T A γ Q := by
  induction p generalizing γ with
  | ret a => exact hp
  | panic => exact hp
  | op o k ih => exact ⟨hp.1, fun a ha => ih a (hp.2 a ha)⟩

theorem Follows.discard {p : Prog Op Ans α} {Q : Unit → Γ → Prop}
    (hp : p.Follows T A γ fun _ γ' => Q () γ') : p.discard.Follows T A γ Q :=
  Follows.bind hp

/-- **A block between two operations.** -/
theorem Follows.guarded {o o' : Op} {p : Ans o → Prog Op Ans α} {P Q : α → Γ → Prop}
    (ho : T.permits γ o) (hp : ∀ a, A o a → (p a).Follows T A (T.next γ ⟨o, some a⟩) P)
    (ho' : ∀ r γ', P r γ' → T.permits γ' o' ∧
      ∀ a, A o' a → Q r (T.next γ' ⟨o', some a⟩)) : (guarded o p o').Follows T A γ Q :=
  ⟨ho, fun a ha => Follows.bind ((hp a ha).mono ho')⟩

/-- **What is left of a program** follows the protocol from the state its calls lead to, unless an
operation has panicked. -/
theorem Follows.steps {p q : Prog Op Ans α} {h : List (Call Ans)} {Q : α → Γ → Prop}
    (hp : p.Follows T A γ Q) (hs : Steps p h q)
    (hA : ∀ c ∈ h, ∀ a, c.ans = some a → A c.op a) :
    (q = .panic ∧ ∃ c ∈ h, c.ans = none) ∨ q.Follows T A (T.after γ h) Q := by
  induction hs generalizing γ with
  | refl p => exact Or.inr hp
  | @head o k a h q hs ih =>
    rw [List.forall_mem_cons] at hA
    cases a with
    | some a =>
      refine (ih (hp.2 a (hA.1 a rfl)) hA.2).imp_left ?_
      rintro ⟨hq, c, hc, hnone⟩
      exact ⟨hq, c, List.mem_cons_of_mem _ hc, hnone⟩
    | none =>
      obtain ⟨rfl, rfl⟩ := hs.of_finished trivial
      exact Or.inl ⟨rfl, _, List.mem_cons_self, rfl⟩

/-- **What it does next** is permitted, whatever it has been answered. -/
theorem Follows.permits {p : Prog Op Ans α} {h : List (Call Ans)} {o : Op} {k : Ans o → Prog Op Ans α}
    {Q : α → Γ → Prop} (hp : p.Follows T (fun _ _ => True) γ Q) (hs : Steps p h (.op o k)) :
    T.permits (T.after γ h) o := by
  rcases hp.steps hs (fun _ _ _ _ => trivial) with ⟨hpanic, -⟩ | hfollows
  · cases hpanic
  · exact hfollows.1

/-- Each call it has made was permitted in the state the calls before it lead to. -/
theorem Follows.permits_of_split {p q : Prog Op Ans α} {h₁ h₂ : List (Call Ans)} {c : Call Ans}
    {Q : α → Γ → Prop} (hp : p.Follows T A γ Q) (hs : Steps p (h₁ ++ c :: h₂) q)
    (hA : ∀ c ∈ h₁, ∀ a, c.ans = some a → A c.op a) : T.permits (T.after γ h₁) c.op := by
  obtain ⟨k, hk, -⟩ := hs.split
  rcases hp.steps hk hA with ⟨hpanic, -⟩ | hfollows
  · cases hpanic
  · exact hfollows.1

/-- What it has performed was permitted. -/
theorem Follows.permits_of_mem {p q : Prog Op Ans α} {h : List (Call Ans)} {Q : α → Γ → Prop}
    (hp : p.Follows T A γ Q) (hs : Steps p h q) (hA : ∀ c ∈ h, ∀ a, c.ans = some a → A c.op a)
    {c : Call Ans} (hc : c ∈ h) : ∃ γ', T.permits γ' c.op := by
  obtain ⟨h₁, h₂, rfl⟩ := List.append_of_mem hc
  exact ⟨_, hp.permits_of_split hs fun c' hc' => hA c' (List.mem_append_left _ hc')⟩

/-- **An invariant of the protocol's state**, kept by every call the protocol permits, whether it is
answered or panics. -/
theorem Follows.invariant {I : Γ → Prop} {p q : Prog Op Ans α} {h : List (Call Ans)}
    {Q : α → Γ → Prop} (hp : p.Follows T A γ Q) (hs : Steps p h q)
    (hA : ∀ c ∈ h, ∀ a, c.ans = some a → A c.op a) (hγ : I γ)
    (hnext : ∀ γ c, T.permits γ c.op → I γ → I (T.next γ c)) : I (T.after γ h) := by
  induction h using List.reverseRecOn generalizing q with
  | nil => exact hγ
  | append_singleton h c ih =>
    have hA' : ∀ c ∈ h, ∀ a, c.ans = some a → A c.op a :=
      fun c' hc' => hA c' (List.mem_append_left _ hc')
    obtain ⟨k, hk, -⟩ := hs.concat_inv
    rw [Protocol.after_concat]
    exact hnext _ c (hp.permits_of_split hs hA') (ih hk hA')

/-- A program whose operations are all permitted in `γ` and leave it as it is. -/
theorem All.follows {P : Op → Prop} {p : Prog Op Ans α} (hp : p.All P)
    (hpermits : ∀ o, P o → T.permits γ o) (hnext : ∀ o a, P o → T.next γ ⟨o, some a⟩ = γ)
    (haborts : T.aborts γ) : p.Follows T A γ fun _ γ' => γ' = γ := by
  induction p with
  | ret a => rfl
  | panic => exact haborts
  | op o k ih =>
    refine ⟨hpermits o hp.1, fun a _ => ?_⟩
    rw [hnext o a hp.1]
    exact ih a (hp.2 a)

end Prog

/-! ## 2. Threads -/

variable {M : Machine Op Ans σ Env} {s s' : Sys Op Ans σ} {t : List (Event Ans)} {i : Nat}

/-- A thread that has not been started has no history. -/
theorem Run.history_eq_nil (h : Run M s t s') (hi : s'.threads.length ≤ i) : history i t = [] := by
  induction h with
  | refl => rfl
  | @tail m m' t e _ hs ih =>
    have hlt := hs.tid_lt
    have hle : m.threads.length ≤ m'.threads.length := by rw [hs.length]; omega
    rw [history_concat_other t (by omega : e.tid ≠ i)]
    exact ih (by omega)

/-- The programs of the threads: those the system starts with, and those that the operations of the run
have started. -/
def programs (M : Machine Op Ans σ Env) (s : Sys Op Ans σ) (t : List (Event Ans)) :
    List (Prog Op Ans Unit) :=
  s.threads ++ t.filterMap fun e => M.fork e.call.op

theorem programs_concat (t : List (Event Ans)) (e : Event Ans) :
    programs M s (t ++ [e]) = programs M s t ++ (M.fork e.call.op).toList := by
  rw [programs, List.filterMap_append, ← List.append_assoc]
  refine congrArg (programs M s t ++ ·) ?_
  cases hf : M.fork e.call.op <;> simp [hf]

theorem Run.length_programs (h : Run M s t s') : s'.threads.length = (programs M s t).length := by
  induction h with
  | refl => simp [programs]
  | tail _ hs ih => rw [hs.length, programs_concat, List.length_append, ih]

/-- **Every thread of a run is what its own history left of its program.** -/
theorem Run.program (h : Run M s t s') {q : Prog Op Ans Unit} (hq : s'.threads[i]? = some q) :
    ∃ p, (programs M s t)[i]? = some p ∧ Prog.Steps p (history i t) q := by
  induction h generalizing q with
  | refl => exact ⟨q, by simpa [programs] using hq, Prog.Steps.refl q⟩
  | @tail m m' t e hr hs ih =>
    have hold : ∀ {p}, (programs M s t)[i]? = some p → (programs M s (t ++ [e]))[i]? = some p := by
      intro p hp
      rw [programs_concat, List.getElem?_append_left (List.getElem?_eq_some_iff.mp hp).1, hp]
    rcases hs.thread_cases hq with ⟨hi, hq'⟩ | ⟨rfl, k, hk, rfl⟩ | ⟨rfl, hf⟩
    · obtain ⟨p, hp, hsteps⟩ := ih hq'
      exact ⟨p, hold hp, by rwa [history_concat_other t hi.symm]⟩
    · obtain ⟨p, hp, hsteps⟩ := ih hk
      exact ⟨p, hold hp, by rw [history_concat_self]; exact hsteps.tail _⟩
    · refine ⟨q, ?_, ?_⟩
      · rw [programs_concat, hf, hr.length_programs, List.getElem?_append_right le_rfl, Nat.sub_self]
        rfl
      · rw [history_concat_other t hs.tid_lt.ne, hr.history_eq_nil le_rfl]
        exact Prog.Steps.refl q

/-- In the run `t` from `s`, thread `i` was started by the event `e`, which came after the events
`t₁`: it was not there before, and is there after it. -/
structure StartedBy (M : Machine Op Ans σ Env) (s : Sys Op Ans σ) (t : List (Event Ans)) (i : Nat)
    (t₁ : List (Event Ans)) (e : Event Ans) : Prop where
  split : ∃ t₂, t = t₁ ++ e :: t₂
  new : ∃ m m', Run M s t₁ m ∧ M.StepTo m e m' ∧ m.threads.length = i ∧ i < m'.threads.length

theorem StartedBy.mem {t₁ : List (Event Ans)} {e : Event Ans} (h : StartedBy M s t i t₁ e) :
    e ∈ t := by
  obtain ⟨t₂, rfl⟩ := h.split
  simp

/-- The run goes on. -/
theorem StartedBy.append {t₁ : List (Event Ans)} {e : Event Ans} (h : StartedBy M s t i t₁ e)
    (t' : List (Event Ans)) : StartedBy M s (t ++ t') i t₁ e := by
  obtain ⟨t₂, rfl⟩ := h.split
  exact ⟨⟨t₂ ++ t', by simp⟩, h.new⟩

/-- A list in which one element at most is of a kind is split there in one way. -/
theorem split_unique {p : α → Bool} {l l₁ l₂ l₁' l₂' : List α} {a a' : α} (h : l = l₁ ++ a :: l₂)
    (h' : l = l₁' ++ a' :: l₂') (ha : p a = true) (ha' : p a' = true) (hcount : l.countP p ≤ 1) :
    l₁ = l₁' := by
  subst h
  rcases List.append_eq_append_iff.mp h' with ⟨as, rfl, has⟩ | ⟨as, rfl, has⟩
  · cases as with
    | nil => simp
    | cons x as =>
      rw [List.cons_append] at has
      obtain ⟨rfl, rfl⟩ := List.cons.inj has
      simp only [List.countP_append, List.countP_cons, ha, ha', if_true] at hcount
      omega
  · cases as with
    | nil => simp
    | cons x as =>
      rw [List.cons_append] at has
      obtain ⟨rfl, rfl⟩ := List.cons.inj has
      simp only [List.countP_append, List.countP_cons, ha, ha', if_true] at hcount
      omega

/-- What only one event is, starts only one thread. -/
theorem StartedBy.unique {t₁ t₁' : List (Event Ans)} {e e' : Event Ans} {j : Nat}
    {p : Event Ans → Bool} (h : StartedBy M s t i t₁ e) (h' : StartedBy M s t j t₁' e')
    (he : p e = true) (he' : p e' = true) (hcount : t.countP p ≤ 1) : i = j := by
  obtain ⟨t₂, ht⟩ := h.split
  obtain ⟨t₂', ht'⟩ := h'.split
  obtain ⟨m, m', hm, -, hi, -⟩ := h.new
  obtain ⟨n, n', hn, -, hj, -⟩ := h'.new
  rw [← hi, ← hj, hm.length_programs, hn.length_programs, split_unique ht ht' he he' hcount]

/-- **A thread that was started** is what its own history left of the program it was started with. -/
theorem StartedBy.steps {t₁ : List (Event Ans)} {e : Event Ans} {p : Prog Op Ans Unit}
    (h : StartedBy M s t i t₁ e) (hrun : Run M s t s') (hf : M.fork e.call.op = some p) :
    ∃ q, s'.threads[i]? = some q ∧ Prog.Steps p (history i t) q := by
  obtain ⟨t₂, rfl⟩ := h.split
  obtain ⟨m, m', hm, -, hi, -⟩ := h.new
  have hp : (programs M s (t₁ ++ e :: t₂))[i]? = some p := by
    have hsplit : programs M s (t₁ ++ e :: t₂)
        = programs M s t₁ ++ p :: t₂.filterMap fun e => M.fork e.call.op := by
      simp [programs, hf]
    rw [hsplit, ← hi, hm.length_programs, List.getElem?_append_right le_rfl, Nat.sub_self]
    rfl
  have hlt : i < s'.threads.length := by
    rw [hrun.length_programs]
    exact (List.getElem?_eq_some_iff.mp hp).1
  obtain ⟨p', hp', hsteps⟩ := hrun.program (List.getElem?_eq_getElem hlt)
  obtain rfl := Option.some.inj (hp.symm.trans hp')
  exact ⟨_, List.getElem?_eq_getElem hlt, hsteps⟩

/-- Where an element of a filtered list comes from. -/
theorem split_of_filterMap {f : α → Option β} {l : List α} {n : Nat} {b : β}
    (h : (l.filterMap f)[n]? = some b) :
    ∃ l₁ a l₂, l = l₁ ++ a :: l₂ ∧ (l₁.filterMap f).length = n ∧ f a = some b := by
  obtain ⟨hlt, rfl⟩ := List.getElem?_eq_some_iff.mp h
  have hsplit := List.take_append_drop n (l.filterMap f)
  rw [List.drop_eq_getElem_cons hlt] at hsplit
  obtain ⟨l₁, l', rfl, htake, hl'⟩ := List.filterMap_eq_append_iff.mp hsplit.symm
  obtain ⟨skipped, a, l₂, rfl, hskipped, ha, -⟩ := List.filterMap_eq_cons_iff.mp hl'
  refine ⟨l₁ ++ skipped, a, l₂, by simp, ?_, ha⟩
  rw [List.filterMap_append, List.filterMap_eq_nil_iff.mpr hskipped, List.append_nil, htake,
    List.length_take]
  exact Nat.min_eq_left hlt.le

/-- **What a thread was started as**: it is one that the system started with, or one that some event of
the run started. -/
theorem Run.started (h : Run M s t s') {q : Prog Op Ans Unit} (hq : s'.threads[i]? = some q) :
    ∃ p, Prog.Steps p (history i t) q ∧ (s.threads[i]? = some p ∨
      ∃ t₁ e, StartedBy M s t i t₁ e ∧ M.fork e.call.op = some p) := by
  obtain ⟨p, hp, hsteps⟩ := h.program hq
  refine ⟨p, hsteps, ?_⟩
  rcases Nat.lt_or_ge i s.threads.length with hi | hi
  · rw [programs, List.getElem?_append_left hi] at hp
    exact Or.inl hp
  · rw [programs, List.getElem?_append_right hi] at hp
    obtain ⟨t₁, e, t₂, rfl, hlength, hf⟩ := split_of_filterMap hp
    obtain ⟨m, m', hmoment⟩ := h.moment
    have hm : m.threads.length = i := by
      rw [hmoment.before.length_programs, programs, List.length_append, hlength]
      omega
    refine Or.inr ⟨t₁, e, ⟨⟨t₂, rfl⟩, m, m', hmoment.before, hmoment.step, hm, ?_⟩, hf⟩
    rw [hmoment.step.length, hf, hm]
    exact Nat.lt_succ_self i

/-- The same of the operation that started it. -/
theorem Run.origin (h : Run M s t s') {q : Prog Op Ans Unit} (hq : s'.threads[i]? = some q) :
    ∃ p, Prog.Steps p (history i t) q ∧
      (s.threads[i]? = some p ∨ ∃ e ∈ t, M.fork e.call.op = some p) := by
  obtain ⟨p, hp, ho⟩ := h.started hq
  refine ⟨p, hp, ho.imp_right ?_⟩
  rintro ⟨t₁, e, hstarted, hf⟩
  exact ⟨e, hstarted.mem, hf⟩

/-- **Every thread follows the protocol**, from the state its own history leads to, when the
programs the system starts with and those its operations start do, and it has not panicked in an
operation. -/
theorem Run.follows {T : Protocol Op Ans Γ} {A : ∀ o, Ans o → Prop} {γ : Γ} {Q : Unit → Γ → Prop}
    (h : Run M s t s') (hs : ∀ p ∈ s.threads, p.Follows T A γ Q)
    (hfork : ∀ o p, M.fork o = some p → p.Follows T A γ Q)
    (hA : ∀ e ∈ t, ∀ a, e.call.ans = some a → A e.call.op a) {q : Prog Op Ans Unit}
    (hq : s'.threads[i]? = some q) :
    (q = .panic ∧ ∃ c ∈ history i t, c.ans = none) ∨
      q.Follows T A (T.after γ (history i t)) Q := by
  obtain ⟨p, hp, ho⟩ := h.origin hq
  have hfollows : p.Follows T A γ Q := by
    rcases ho with ho | ⟨e, -, hf⟩
    · exact hs p (List.mem_of_getElem? ho)
    · exact hfork _ _ hf
  refine hfollows.steps hp fun c hc a ha => ?_
  obtain ⟨e, he, -, rfl⟩ := mem_history.mp hc
  exact hA e he a ha

end Concurrency
