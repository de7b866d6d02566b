/-
# Blocks under one lock

Threads that do blocks of operations, one after the other, each of which takes the same lock first
and gives it back last.  The operations of two blocks never mix then.  A run is the blocks one after
the other, in the order in which they took the lock, and the beginning of one more (`Serialized`);
each block does what it does alone, on the state the one before it has left (`Chain`).

`Resource` says which operations take the lock and give it back, where it is free, and in which states
a block may find what the lock protects.  A block is `Atomic` when it keeps to that: `Prog.Closed` is
its shape past its first operation, and a `Spec` what it does alone.
-/
import Slonk.Concurrency.Solo
import Slonk.Concurrency.Modular

namespace Concurrency

variable {Op : Type} {Ans : Op → Type} {σ Env α β γ : Type}

/-! ## 1. One step of a specification -/

section Steps

variable {M : Machine Op Ans σ Env} {E : Env → Prop} {s : σ} {env : Env}

/-- The first operation answers, and the rest meets what is left of the specification. -/
theorem Spec.step {o : Op} {k : Ans o → Prog Op Ans α} {Q : α → List (Call Ans) → σ → Prop}
    (h : Spec M E (.op o k) s Q) (henv : E env) : ∃ a, (M.exec o env s).1 = some a ∧
      Spec M E (k a) (M.exec o env s).2 fun b h s' => Q b (⟨o, some a⟩ :: h) s' := by
  cases hexec : (M.exec o env s).1 with
  | none =>
    obtain ⟨a, ha, -⟩ := h (fun _ => env) fun _ => henv
    rw [eval_op_none hexec] at ha
    cases ha
  | some a =>
    refine ⟨a, rfl, fun ω hω => ?_⟩
    -- the decision of this step, and then those of the rest
    obtain ⟨b, hb, hQ⟩ := h (fun n => n.casesOn env ω) fun n => by
      cases n with
      | zero => exact henv
      | succ n => exact hω n
    rw [eval_op_some hexec] at hb hQ
    exact ⟨b, hb, hQ⟩

theorem Spec.of_ret {a : α} {Q : α → List (Call Ans) → σ → Prop}
    (h : Spec M E (.ret a : Prog Op Ans α) s Q) (henv : E env) : Q a [] s := by
  obtain ⟨b, hb, hQ⟩ := h (fun _ => env) fun _ => henv
  obtain rfl := Outcome.returned.inj hb
  exact hQ

theorem Spec.not_panic {Q : α → List (Call Ans) → σ → Prop}
    (h : Spec M E (.panic : Prog Op Ans α) s Q) (henv : E env) : False := by
  obtain ⟨b, hb, -⟩ := h (fun _ => env) fun _ => henv
  cases hb

/-- Two specifications of one program. -/
theorem Spec.and {p : Prog Op Ans α} {Q Q' : α → List (Call Ans) → σ → Prop}
    (h : Spec M E p s Q) (h' : Spec M E p s Q') :
    Spec M E p s fun a h s' => Q a h s' ∧ Q' a h s' := by
  intro ω hω
  obtain ⟨a, ha, hQ⟩ := h ω hω
  obtain ⟨a', ha', hQ'⟩ := h' ω hω
  obtain rfl := Outcome.returned.inj (ha.symm.trans ha')
  exact ⟨a, ha, hQ, hQ'⟩

end Steps

/-! ## 2. Blocks -/

/-- What a lock protects: the operations that take it and give it back, the states in which it is
free, and those in which a block may start. -/
structure Resource (Op σ : Type) where
  opens : Op → Prop
  closes : Op → Prop
  free : σ → Prop
  rests : σ → Prop

variable {R : Resource Op σ}

/-- The lock is not taken again, and nothing comes after it is given back. -/
def Prog.Closed (R : Resource Op σ) : Prog Op Ans α → Prop
  | ret _ => True
  | panic => True
  | op o k => ¬ R.opens o ∧ (R.closes o → ∀ a, (k a).Finished) ∧ ∀ a, (k a).Closed R

theorem Prog.Finished.closed {p : Prog Op Ans α} (h : p.Finished) : p.Closed R := by
  cases p with
  | ret a => trivial
  | panic => trivial
  | op o k => exact h.elim

theorem Prog.Finished.bind {p : Prog Op Ans α} {f : α → Prog Op Ans β} (h : p.Finished)
    (hf : ∀ a, (f a).Finished) : (p.bind f).Finished := by
  cases p with
  | ret a => exact hf a
  | panic => trivial
  | op o k => exact h.elim

/-- Operations under the lock, and then the rest of the block. -/
theorem Prog.Closed.bind {p : Prog Op Ans α} {f : α → Prog Op Ans β}
    (hp : p.All fun o => ¬ R.opens o ∧ ¬ R.closes o) (hf : ∀ a, (f a).Closed R) :
    (p.bind f).Closed R := by
  induction p with
  | ret a => exact hf a
  | panic => trivial
  | op o k ih => exact ⟨hp.1.1, fun hc => absurd hc hp.1.2, fun a => ih a (hp.2 a)⟩

/-- A block whose result is worked on without further operations. -/
theorem Prog.Closed.bind_finished {p : Prog Op Ans α} {f : α → Prog Op Ans β} (hp : p.Closed R)
    (hf : ∀ a, (f a).Finished) : (p.bind f).Closed R := by
  induction p with
  | ret a => exact (hf a).closed
  | panic => trivial
  | op o k ih =>
    exact ⟨hp.1, fun hc a => (hp.2.1 hc a).bind hf, fun a => ih a (hp.2.2 a)⟩

/-- The machine treats the lock as one. -/
structure Resource.Locks (R : Resource Op σ) (M : Machine Op Ans σ Env) (E : Env → Prop) : Prop where
  noFork : ∀ o, M.fork o = none
  taken : ∀ o env s, R.opens o → E env → R.rests s → ¬ R.free (M.exec o env s).2
  kept : ∀ o env s, ¬ R.opens o → ¬ R.closes o → ¬ R.free s → ¬ R.free (M.exec o env s).2
  free : ∀ s, R.rests s → R.free s

/-- **A block**: it takes the lock first and gives it back last, and alone it does `Post` and leaves a
state in which the next one may start. -/
structure Atomic (R : Resource Op σ) (M : Machine Op Ans σ Env) (E : Env → Prop)
    (Post : σ → γ → List (Call Ans) → σ → Prop) (p : Prog Op Ans γ) : Prop where
  begins : ∃ o k, p = .op o k ∧ R.opens o ∧ ∀ a, (k a).Closed R
  meets : ∀ s, R.rests s → Spec M E p s fun c h s' => Post s c h s' ∧ R.rests s'

/-- These blocks one after the other, and what they return. -/
def Prog.serially (B : β → Prog Op Ans γ) : List β → Prog Op Ans (List γ)
  | [] => ret []
  | b :: bs => (B b).bind fun c => (serially B bs).bind fun cs => ret (c :: cs)

/-- What a thread with these results has still to do. -/
def remaining (B : β → Prog Op Ans γ) (results : List γ) (rest : List β) : Prog Op Ans (List γ) :=
  (Prog.serially B rest).bind fun cs => .ret (results ++ cs)

theorem remaining_nil (B : β → Prog Op Ans γ) (bs : List β) :
    remaining B [] bs = Prog.serially B bs := Prog.bind_pure_right _

theorem remaining_cons (B : β → Prog Op Ans γ) (results : List γ) (b : β) (rest : List β) :
    remaining B results (b :: rest) = (B b).bind fun c => remaining B (results ++ [c]) rest := by
  simp [remaining, Prog.serially, Prog.bind_assoc]

/-! ## 3. Blocks that have been done -/

/-- A block that a thread has done: what it returned and the calls it made. -/
structure Visit {Op : Type} (Ans : Op → Type) (β γ : Type) where
  thread : Nat
  block : β
  result : γ
  calls : List (Call Ans)

/-- The part of a run in which it was done. -/
def Visit.events (x : Visit Ans β γ) : List (Event Ans) := x.calls.map (⟨x.thread, ·⟩)

/-- The blocks of one thread. -/
def visitsOf (i : Nat) (visits : List (Visit Ans β γ)) : List (Visit Ans β γ) :=
  visits.filter fun x => x.thread = i

@[simp] theorem visitsOf_nil (i : Nat) : visitsOf i ([] : List (Visit Ans β γ)) = [] := rfl

theorem visitsOf_concat_self (visits : List (Visit Ans β γ)) (x : Visit Ans β γ) :
    visitsOf x.thread (visits ++ [x]) = visitsOf x.thread visits ++ [x] := by
  simp [visitsOf]

theorem visitsOf_concat_other {i : Nat} (visits : List (Visit Ans β γ)) {x : Visit Ans β γ}
    (h : i ≠ x.thread) : visitsOf i (visits ++ [x]) = visitsOf i visits := by
  simp [visitsOf, h.symm]

/-- **One after the other**, each from the state the one before it has left. -/
inductive Chain (Post : β → σ → γ → List (Call Ans) → σ → Prop) (s : σ) :
    List (Visit Ans β γ) → σ → Prop
  | nil : Chain Post s [] s
  | snoc {visits : List (Visit Ans β γ)} {x : Visit Ans β γ} {s' s'' : σ} :
      Chain Post s visits s' → Post x.block s' x.result x.calls s'' →
        Chain Post s (visits ++ [x]) s''

/-! ## 4. Threads -/

section Threads

variable (B : β → Prog Op Ans γ)

/-- Where thread `i` is in these blocks. -/
structure Standing (bs : List β) (i : Nat) (t : List (Event Ans)) (threads : List (Prog Op Ans Unit))
    (p : Prog Op Ans (List γ)) : Prop where
  steps : Prog.Steps (Prog.serially B bs) (history i t) p
  thread : threads[i]? = some p.discard

/-- Thread `i` is between two blocks. -/
def Between (visits : List (Visit Ans β γ)) (bs : List β) (i : Nat) (t : List (Event Ans))
    (threads : List (Prog Op Ans Unit)) : Prop :=
  ∃ rest, bs = (visitsOf i visits).map Visit.block ++ rest ∧
    Standing B bs i t threads (remaining B ((visitsOf i visits).map Visit.result) rest)

variable {B}

section

variable {M : Machine Op Ans σ Env} {s s' : Sys Op Ans σ} {e : Event Ans} {bs : List β}
  {t : List (Event Ans)} {p : Prog Op Ans (List γ)}

theorem Standing.step_self (hs : M.StepTo s e s') (h : Standing B bs e.tid t s.threads p) :
    ∃ k, p = .op e.call.op k ∧
      Standing B bs e.tid (t ++ [e]) s'.threads (Prog.resume k e.call.ans) := by
  obtain ⟨k, hk, hk'⟩ := hs.self
  have hop := hk.symm.trans h.thread
  cases p with
  | ret a => cases hop
  | panic => cases hop
  | op o k₀ =>
    obtain ⟨tid, ⟨op, ans⟩⟩ := e
    cases hop
    refine ⟨k₀, rfl, ?_, ?_⟩
    · rw [history_concat_self]
      exact h.steps.tail ans
    · rw [hk', Prog.discard, Prog.resume_bind]

theorem Standing.step_other (hs : M.StepTo s e s') {i : Nat} (hi : i ≠ e.tid)
    (h : Standing B bs i t s.threads p) : Standing B bs i (t ++ [e]) s'.threads p := by
  constructor
  · rw [history_concat_other t hi.symm]
    exact h.steps
  · rw [hs.other hi (List.getElem?_eq_some_iff.mp h.thread).1]
    exact h.thread

end

variable (R B)

/-- Thread `j` is in its block `b`, which has made the calls `h` since it found the state `s₁`. -/
structure Doing (M : Machine Op Ans σ Env) (E : Env → Prop)
    (Post : β → σ → γ → List (Call Ans) → σ → Prop) (bss : List (List β)) (s₀ : σ)
    (visits : List (Visit Ans β γ)) (j : Nat) (b : β) (h : List (Call Ans)) (q : Prog Op Ans γ)
    (s₁ : σ) (t : List (Event Ans)) (s : Sys Op Ans σ) : Prop where
  chain : Chain Post s₀ visits s₁
  rests : R.rests s₁
  trace : t = visits.flatMap Visit.events ++ h.map (⟨j, ·⟩)
  steps : Prog.Steps (B b) h q
  closed : q.Closed R
  taken : ¬ q.Finished → ¬ R.free s.shared
  meets : Spec M E q s.shared fun c h' s' => Post b s₁ c (h ++ h') s' ∧ R.rests s'
  thread : ∃ bs rest, bss[j]? = some bs ∧ bs = (visitsOf j visits).map Visit.block ++ b :: rest ∧
    Standing B bs j t s.threads
      (q.bind fun c => remaining B ((visitsOf j visits).map Visit.result ++ [c]) rest)
  others : ∀ i bs, i ≠ j → bss[i]? = some bs → Between B visits bs i t s.threads

/-- **The blocks one after the other**, and the beginning of one more. -/
inductive Serialized (M : Machine Op Ans σ Env) (E : Env → Prop)
    (Post : β → σ → γ → List (Call Ans) → σ → Prop) (bss : List (List β)) (s₀ : σ)
    (t : List (Event Ans)) (s : Sys Op Ans σ) : Prop
  | rest (visits : List (Visit Ans β γ)) (chain : Chain Post s₀ visits s.shared)
      (rests : R.rests s.shared) (trace : t = visits.flatMap Visit.events)
      (threads : ∀ i bs, bss[i]? = some bs → Between B visits bs i t s.threads)
  | busy (visits : List (Visit Ans β γ)) (j : Nat) (b : β) (h : List (Call Ans))
      (q : Prog Op Ans γ) (s₁ : σ) (unfinished : ¬ q.Finished)
      (doing : Doing R B M E Post bss s₀ visits j b h q s₁ t s)

variable {R B} {M : Machine Op Ans σ Env} {E : Env → Prop}
  {Post : β → σ → γ → List (Call Ans) → σ → Prop} {bss : List (List β)} {s₀ : σ}
  {visits : List (Visit Ans β γ)} {j : Nat} {b : β} {h : List (Call Ans)} {q : Prog Op Ans γ}
  {s₁ : σ} {t : List (Event Ans)} {s s' : Sys Op Ans σ} {e : Event Ans} {env : Env}

/-- A block that has returned is one more that has been done. -/
theorem Doing.settle (hd : Doing R B M E Post bss s₀ visits j b h q s₁ t s) (henv : E env) :
    Serialized R B M E Post bss s₀ t s := by
  cases q with
  | panic => exact (hd.meets.not_panic henv).elim
  | op o k => exact .busy visits j b h _ s₁ id hd
  | ret c =>
    obtain ⟨hpost, hrests⟩ := hd.meets.of_ret henv
    rw [List.append_nil] at hpost
    obtain ⟨bs, rest, hbs, hsplit, hstanding⟩ := hd.thread
    refine .rest (visits ++ [⟨j, b, c, h⟩]) (hd.chain.snoc hpost) hrests ?_ fun i bs' hbs' => ?_
    · rw [hd.trace, List.flatMap_append]
      simp [Visit.events]
    · by_cases hi : i = j
      · subst hi
        obtain rfl := Option.some.inj (hbs.symm.trans hbs')
        refine ⟨rest, ?_, ?_⟩
        · rw [visitsOf_concat_self _ ⟨i, b, c, h⟩, hsplit]
          simp
        · rw [visitsOf_concat_self _ ⟨i, b, c, h⟩]
          simpa using hstanding
      · have hother := visitsOf_concat_other visits (x := ⟨j, b, c, h⟩) hi
        obtain ⟨rest', hsplit', hstanding'⟩ := hd.others i bs' hi hbs'
        exact ⟨rest', by rw [hother]; exact hsplit', by rw [hother]; exact hstanding'⟩

theorem Between.step_other (hs : (M.restrict E).StepTo s e s') {i : Nat} {bs : List β}
    (hi : i ≠ e.tid) (hb : Between B visits bs i t s.threads) :
    Between B visits bs i (t ++ [e]) s'.threads := by
  obtain ⟨rest, hsplit, hstanding⟩ := hb
  exact ⟨rest, hsplit, hstanding.step_other hs hi⟩

/-- The next operation of a thread between two blocks takes the lock. -/
theorem Between.opens {i : Nat} {bs : List β}
    (hB : ∀ b ∈ bs, Atomic R M E (Post b) (B b)) (hb : Between B visits bs i t s.threads) :
    (∃ rest b o k, bs = (visitsOf i visits).map Visit.block ++ b :: rest ∧ B b = .op o k ∧
      R.opens o ∧ Standing B bs i t s.threads
        ((B b).bind fun c => remaining B ((visitsOf i visits).map Visit.result ++ [c]) rest)) ∨
      bs = (visitsOf i visits).map Visit.block ∧
        Standing B bs i t s.threads (.ret ((visitsOf i visits).map Visit.result)) := by
  obtain ⟨rest, hsplit, hstanding⟩ := hb
  cases rest with
  | nil =>
    refine Or.inr ⟨by simpa using hsplit, ?_⟩
    simpa [remaining, Prog.serially] using hstanding
  | cons b rest =>
    obtain ⟨o, k, hop, hopens, -⟩ := (hB b (by simp [hsplit])).begins
    rw [remaining_cons] at hstanding
    exact Or.inl ⟨rest, b, o, k, hsplit, hop, hopens, hstanding⟩

/-- **A block begins.** -/
theorem Serialized.begin (hR : R.Locks M E)
    (hB : ∀ bs ∈ bss, ∀ b ∈ bs, Atomic R M E (Post b) (B b)) (hs : (M.restrict E).StepTo s e s')
    {bs : List β} (hbs : bss[e.tid]? = some bs) (chain : Chain Post s₀ visits s.shared)
    (rests : R.rests s.shared) (trace : t = visits.flatMap Visit.events)
    (threads : ∀ i bs, bss[i]? = some bs → Between B visits bs i t s.threads) :
    Serialized R B M E Post bss s₀ (t ++ [e]) s' := by
  obtain ⟨env, hans, hshared⟩ := hs.exec
  have hatomic := hB bs (List.mem_of_getElem? hbs)
  rcases (threads e.tid bs hbs).opens hatomic with
    ⟨rest, b, o, k, hsplit, hop, hopens, hstanding⟩ | ⟨-, hstanding⟩
  · obtain ⟨o', k', hop', hopens', hclosed⟩ := (hatomic b (by simp [hsplit])).begins
    obtain ⟨rfl, hk⟩ := Prog.op.inj (hop.symm.trans hop')
    obtain rfl := eq_of_heq hk
    have hmeets := (hatomic b (by simp [hsplit])).meets s.shared rests
    obtain ⟨k₀, hk₀, hstanding'⟩ := hstanding.step_self hs
    rw [hop] at hmeets hk₀
    obtain ⟨tid, ⟨op, ans⟩⟩ := e
    change _ = Prog.op op k₀ at hk₀
    cases hk₀
    obtain ⟨a, ha, hmeets'⟩ := hmeets.step env.2
    obtain rfl : ans = some a := hans.trans ha
    have htaken : ¬ R.free s'.shared := hshared ▸ hR.taken o env.1 s.shared hopens env.2 rests
    have hdoing : Doing R B M E Post bss s₀ visits tid b [⟨o, some a⟩] (k a) s.shared
        (t ++ [⟨tid, ⟨o, some a⟩⟩]) s' := by
      refine ⟨chain, rests, by simp [trace], ?_, hclosed a, fun _ => htaken, ?_,
        ⟨bs, rest, hbs, hsplit, hstanding'⟩, fun i bs' hi hbs' => ?_⟩
      · rw [hop]
        exact (Prog.Steps.refl _).head (a := some a)
      · rw [hshared]
        exact hmeets'
      · exact (threads i bs' hbs').step_other hs hi
    exact hdoing.settle env.2
  · obtain ⟨k, hk, -⟩ := hstanding.step_self hs
    cases hk

/-- **A block goes on.** -/
theorem Doing.continue (hR : R.Locks M E) (hs : (M.restrict E).StepTo s e s')
    (hd : Doing R B M E Post bss s₀ visits e.tid b h q s₁ t s) (hne : ¬ q.Finished) :
    Serialized R B M E Post bss s₀ (t ++ [e]) s' := by
  obtain ⟨env, hans, hshared⟩ := hs.exec
  obtain ⟨bs, rest, hbs, hsplit, hstanding⟩ := hd.thread
  cases q with
  | ret c => exact absurd trivial hne
  | panic => exact absurd trivial hne
  | op o k =>
    obtain ⟨k₀, hk₀, hstanding'⟩ := hstanding.step_self hs
    obtain ⟨tid, ⟨op, ans⟩⟩ := e
    change _ = Prog.op op k₀ at hk₀
    cases hk₀
    obtain ⟨a, ha, hmeets'⟩ := hd.meets.step env.2
    obtain rfl : ans = some a := hans.trans ha
    have hdoing : Doing R B M E Post bss s₀ visits tid b (h ++ [⟨o, some a⟩]) (k a) s₁
        (t ++ [⟨tid, ⟨o, some a⟩⟩]) s' := by
      refine ⟨hd.chain, hd.rests, by simp [hd.trace], hd.steps.tail (some a), hd.closed.2.2 a,
        fun hne' => ?_, ?_, ⟨bs, rest, hbs, hsplit, hstanding'⟩,
        fun i bs' hi hbs' => (hd.others i bs' hi hbs').step_other hs hi⟩
      · have hkeeps : ¬ R.closes o := fun hc => hne' (hd.closed.2.1 hc a)
        rw [hshared]
        exact hR.kept o env.1 s.shared hd.closed.1 hkeeps (hd.taken hne)
      · rw [hshared]
        refine hmeets'.mono fun c h' s'' hpost => ?_
        simpa using hpost
    exact hdoing.settle env.2

/-- **A step keeps the blocks one after the other.** -/
theorem Serialized.step (hR : R.Locks M E)
    (hB : ∀ bs ∈ bss, ∀ b ∈ bs, Atomic R M E (Post b) (B b)) (hs : (M.restrict E).StepTo s e s')
    (hfree : R.opens e.call.op → R.free s.shared) {bs : List β} (hbs : bss[e.tid]? = some bs)
    (h : Serialized R B M E Post bss s₀ t s) : Serialized R B M E Post bss s₀ (t ++ [e]) s' := by
  cases h with
  | rest visits chain rests trace threads =>
    exact Serialized.begin hR hB hs hbs chain rests trace threads
  | busy visits j b h q s₁ unfinished doing =>
    by_cases hj : e.tid = j
    · subst hj
      exact doing.continue hR hs unfinished
    · -- the lock is taken, so no other thread can begin
      rcases (doing.others e.tid bs hj hbs).opens (hB bs (List.mem_of_getElem? hbs)) with
        ⟨rest, b', o, k, -, hop, hopens, hstanding⟩ | ⟨-, hstanding⟩
      · obtain ⟨k₀, hk₀, -⟩ := hstanding.step_self hs
        rw [hop] at hk₀
        obtain ⟨tid, ⟨op, ans⟩⟩ := e
        cases hk₀
        exact absurd (hfree hopens) (doing.taken unfinished)
      · obtain ⟨k, hk, -⟩ := hstanding.step_self hs
        cases hk

/-- **Every run is serial**, when the lock is taken only where it is free. -/
theorem Serialized.of_run {G : List (Event Ans) → Sys Op Ans σ → Event Ans → Prop}
    (hR : R.Locks M E) (hB : ∀ bs ∈ bss, ∀ b ∈ bs, Atomic R M E (Post b) (B b))
    (hG : ∀ t s e, G t s e → R.opens e.call.op → R.free s.shared) (hs₀ : R.rests s₀)
    (hrun : GuardedRun (M.restrict E) G ⟨s₀, bss.map fun bs => (Prog.serially B bs).discard⟩ t s) :
    Serialized R B M E Post bss s₀ t s ∧ s.threads.length = bss.length := by
  induction hrun with
  | refl =>
    refine ⟨.rest [] .nil hs₀ rfl fun i bs hbs => ⟨bs, rfl, ?_, ?_⟩, by simp⟩
    · simpa [remaining_nil] using Prog.Steps.refl _
    · simp [hbs, remaining_nil]
  | @tail m m' t e _ hs hguard ih =>
    obtain ⟨hserial, hlength⟩ := ih
    have hlt : e.tid < bss.length := hlength ▸ hs.tid_lt
    refine ⟨hserial.step hR hB hs (hG t m e hguard) (List.getElem?_eq_getElem hlt), ?_⟩
    have hnone : (M.restrict E).fork e.call.op = none := hR.noFork _
    rw [hs.length, hnone, hlength]
    rfl

/-- **Nobody waits for ever**: unless all threads have finished, one of them can take a step. -/
theorem Serialized.progress (hR : R.Locks M E) (henv : E env)
    (hlength : s.threads.length = bss.length) (h : Serialized R B M E Post bss s₀ t s)
    (hne : ∃ p ∈ s.threads, ¬ p.Finished) :
    ∃ e s', (M.restrict E).StepTo s e s' ∧ (R.opens e.call.op → R.free s.shared) := by
  cases h with
  | rest visits chain rests trace threads =>
    obtain ⟨p, hp, hne⟩ := hne
    obtain ⟨i, hi⟩ := List.mem_iff_getElem?.mp hp
    obtain ⟨bs, hbs⟩ : ∃ bs, bss[i]? = some bs :=
      ⟨_, List.getElem?_eq_getElem (hlength ▸ (List.getElem?_eq_some_iff.mp hi).1)⟩
    cases p with
    | ret a => exact absurd trivial hne
    | panic => exact absurd trivial hne
    | op o k => exact ⟨_, _, Machine.StepTo.intro hi ⟨env, henv⟩, fun _ => hR.free _ rests⟩
  | busy visits j b h q s₁ unfinished doing =>
    obtain ⟨bs, rest, -, -, hstanding⟩ := doing.thread
    cases q with
    | ret a => exact absurd trivial unfinished
    | panic => exact absurd trivial unfinished
    | op o k =>
      exact ⟨_, _, Machine.StepTo.intro hstanding.thread ⟨env, henv⟩,
        fun hopens => absurd hopens doing.closed.1⟩

end Threads

end Concurrency
