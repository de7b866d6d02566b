/-
# Locks

Some operations acquire a lock, some release one.  What a thread holds follows from its own
history, as long as it has not finished: a thread that returns or panics drops its guards
(`Locking.Holds`).  A lock is taken for shared or for exclusive use, and a step may take only a lock
that no thread holds against that use (`Grants`).  So a lock held for exclusive use has one holder
(`Holds.exclusive`).

Which locks a program asks for under which is said about the program alone (`Keeps`), by a rule for
each way to build it, and holds of its thread in every run (`Requests.nested`).

A thread that asks for a lock somebody holds waits (`WaitsFor`).  If the locks can be ranked so that
every thread asks only for locks above those it holds, then no thread waits for itself, not even
along a chain of others (`no_cycle`), and as long as some thread has something to do, some thread
can do it (`exists_ready`).
-/
import Slonk.Concurrency.Protocol

namespace Concurrency

/-- How a lock is taken. -/
inductive Mode
  | shared
  | exclusive
  deriving DecidableEq, Repr

/-- Which operations take a lock and which give one back. -/
structure Locking (Op Lock : Type) where
  acquires : Op → Option (Lock × Mode)
  releases : Op → Option Lock

variable {Op Lock : Type} [DecidableEq Lock] {Ans : Op → Type} {σ Env α β : Type}

namespace Locking

variable (L : Locking Op Lock)

/-- What a call does to the locks its thread holds. -/
def next (held : List (Lock × Mode)) (c : Call Ans) : List (Lock × Mode) :=
  match L.acquires c.op with
  | some x => x :: held
  | none =>
    match L.releases c.op with
    | some l => held.eraseP (·.1 = l)
    | none => held

/-- The locks a thread has taken and not given back in these calls. -/
def held (h : List (Call Ans)) : List (Lock × Mode) := h.foldl L.next []

/-- Only operations in `P`, and a lock is asked for only under locks it may be nested in. -/
def nesting (R : Lock → Lock → Prop) (P : Op → Prop) : Protocol Op Ans (List (Lock × Mode)) where
  permits held o := P o ∧ ∀ x, L.acquires o = some x → ∀ y ∈ held, R y.1 x.1
  aborts _ := True
  next := L.next

/-- The program, started with these locks and answered as `A` allows, performs operations in `P`,
nests its locks as `R` allows, and returns with the locks it started with. -/
def Keeps (R : Lock → Lock → Prop) (P : Op → Prop) (A : ∀ o, Ans o → Prop)
    (held : List (Lock × Mode)) (p : Prog Op Ans α) : Prop :=
  p.Follows (L.nesting R P) A held fun _ held' => held' = held

/-! ## 1. Waiting -/

variable (t : List (Event Ans)) (s : Sys Op Ans σ)

/-- Thread `j` has something to do, and holds the lock. -/
def Holds (j : Nat) (l : Lock) (mode : Mode) : Prop :=
  ∃ q, s.threads[j]? = some q ∧ ¬ q.Finished ∧ (l, mode) ∈ L.held (history j t)

/-- Thread `i` is about to take the lock. -/
def Requests (i : Nat) (l : Lock) (mode : Mode) : Prop :=
  ∃ o k, s.threads[i]? = some (.op o k) ∧ L.acquires o = some (l, mode)

/-- Thread `i` asks for a lock that thread `j` holds. -/
def WaitsFor (i j : Nat) : Prop :=
  ∃ l mode mode', L.Requests s i l mode ∧ L.Holds t s j l mode'

/-- Nobody holds the lock against this use of it. -/
def Free (l : Lock) : Mode → Prop
  | .exclusive => ∀ j mode, ¬ L.Holds t s j l mode
  | .shared => ∀ j, ¬ L.Holds t s j l .exclusive

/-- Thread `i` has something to do, and does not have to wait for a lock. -/
def Ready (i : Nat) : Prop :=
  ∃ o k, s.threads[i]? = some (.op o k) ∧
    ∀ l mode, L.acquires o = some (l, mode) → L.Free t s l mode

/-- A step that takes a lock takes one that nobody holds against it. -/
def Grants (e : Event Ans) : Prop :=
  ∀ l mode, L.acquires e.call.op = some (l, mode) → L.Free t s l mode

/-- `Grants`, as a check. -/
def grants (e : Event Ans) : Bool :=
  match L.acquires e.call.op with
  | none => true
  | some (l, mode) => (List.range s.threads.length).all fun j =>
    ((s.threads[j]?.bind Prog.pending).isNone : Bool) || (L.held (history j t)).all fun y =>
      y.1 != l || (mode == .shared && y.2 == .shared)

variable {L t s} {M : Machine Op Ans σ Env} {s₀ : Sys Op Ans σ} {i j : Nat}

omit [DecidableEq Lock] in
theorem Requests.unique {l l' : Lock} {mode mode' : Mode} (h : L.Requests s i l mode)
    (h' : L.Requests s i l' mode') : l' = l := by
  obtain ⟨o, k, hq, ho⟩ := h
  obtain ⟨o', k', hq', ho'⟩ := h'
  obtain ⟨rfl, -⟩ := Prog.op.inj (Option.some.inj (hq.symm.trans hq'))
  exact congrArg Prod.fst (Option.some.inj (ho'.symm.trans ho))

theorem Holds.tid_lt {l : Lock} {mode : Mode} (h : L.Holds t s j l mode) : j < s.threads.length := by
  obtain ⟨q, hq, -⟩ := h
  exact (List.getElem?_eq_some_iff.mp hq).1

theorem holds_of_pending {o : Op} {l : Lock} {mode : Mode}
    (hq : s.threads[j]?.bind Prog.pending = some o) (hm : (l, mode) ∈ L.held (history j t)) :
    L.Holds t s j l mode := by
  obtain ⟨q, hq, ho⟩ := Option.bind_eq_some_iff.mp hq
  obtain ⟨k, rfl⟩ := Prog.pending_eq_some.mp ho
  exact ⟨_, hq, id, hm⟩

omit [DecidableEq Lock] in
theorem requests_of_pending {o : Op} {l : Lock} {mode : Mode}
    (hq : s.threads[i]?.bind Prog.pending = some o) (ho : L.acquires o = some (l, mode)) :
    L.Requests s i l mode := by
  obtain ⟨q, hq, hp⟩ := Option.bind_eq_some_iff.mp hq
  obtain ⟨k, rfl⟩ := Prog.pending_eq_some.mp hp
  exact ⟨o, k, hq, ho⟩

/-- **The check is right.** -/
theorem grants_of_grants {e : Event Ans} (h : L.grants t s e = true) : L.Grants t s e := by
  intro l mode hacq
  unfold grants at h
  rw [hacq] at h
  -- a lock somebody holds is held for shared use, and asked for shared use
  have hshared : ∀ j mode', L.Holds t s j l mode' → mode = .shared ∧ mode' = .shared := by
    intro j mode' hj
    have hlt := hj.tid_lt
    obtain ⟨q, hq, hf, hmem⟩ := hj
    have hall := List.all_eq_true.mp h j (List.mem_range.mpr hlt)
    have hpending : (s.threads[j]?.bind Prog.pending).isNone = false := by
      rw [hq, Option.bind_some, Option.isNone_eq_false_iff, Option.isSome_iff_ne_none]
      exact fun hnone => hf (Prog.pending_eq_none.mp hnone)
    rw [hpending, Bool.false_or] at hall
    have := List.all_eq_true.mp hall _ hmem
    simpa using this
  cases mode with
  | exclusive =>
    intro j mode' hj
    cases (hshared j mode' hj).1
  | shared =>
    intro j hj
    cases (hshared j _ hj).2

/-- A thread that has something to do is ready, or waits for another one. -/
theorem ready_or_waits {q : Prog Op Ans Unit} (hq : s.threads[i]? = some q) (hf : ¬ q.Finished) :
    L.Ready t s i ∨ ∃ j, L.WaitsFor t s i j := by
  cases q with
  | ret a => exact absurd trivial hf
  | panic => exact absurd trivial hf
  | op o k =>
    by_cases hfree : ∀ l mode, L.acquires o = some (l, mode) → L.Free t s l mode
    · exact Or.inl ⟨o, k, hq, hfree⟩
    · push Not at hfree
      obtain ⟨l, mode, ho, hheld⟩ := hfree
      refine Or.inr ?_
      cases mode with
      | exclusive =>
        simp only [Free, not_forall, not_not] at hheld
        obtain ⟨j, mode', hj⟩ := hheld
        exact ⟨j, l, _, mode', ⟨o, k, hq, ho⟩, hj⟩
      | shared =>
        simp only [Free, not_forall, not_not] at hheld
        obtain ⟨j, hj⟩ := hheld
        exact ⟨j, l, _, _, ⟨o, k, hq, ho⟩, hj⟩

/-- What a thread holds after a step it held before, or has just taken. -/
theorem Holds.before {e : Event Ans} {s' : Sys Op Ans σ} {l : Lock} {mode : Mode}
    (hrun : Run M s₀ t s) (hs : M.StepTo s e s') (h : L.Holds (t ++ [e]) s' j l mode) :
    L.Holds t s j l mode ∨ (j = e.tid ∧ L.acquires e.call.op = some (l, mode)) := by
  obtain ⟨q, hq, hf, hmem⟩ := h
  rcases hs.thread_cases hq with ⟨hj, hq'⟩ | ⟨rfl, k, hk, -⟩ | ⟨rfl, -⟩
  · rw [history_concat_other t hj.symm] at hmem
    exact Or.inl ⟨q, hq', hf, hmem⟩
  · have hheld : L.held (history e.tid (t ++ [e])) = L.next (L.held (history e.tid t)) e.call := by
      simp [held, history_concat_self]
    rw [hheld] at hmem
    unfold next at hmem
    split at hmem
    · rename_i x hx
      rcases List.mem_cons.mp hmem with heq | hmem
      · exact Or.inr ⟨rfl, heq ▸ hx⟩
      · exact Or.inl ⟨_, hk, id, hmem⟩
    · split at hmem
      · exact Or.inl ⟨_, hk, id, List.mem_of_mem_eraseP hmem⟩
      · exact Or.inl ⟨_, hk, id, hmem⟩
  · -- a thread that has just been started holds nothing
    have hnil : history s.threads.length (t ++ [e]) = [] := by
      rw [history_concat_other t (hs.tid_lt).ne]
      exact hrun.history_eq_nil le_rfl
    rw [hnil] at hmem
    exact absurd hmem List.not_mem_nil

/-- **A lock held for exclusive use** is held by no other thread. -/
theorem Holds.exclusive {G : List (Event Ans) → Sys Op Ans σ → Event Ans → Prop} {l : Lock}
    {mode : Mode} (hrun : GuardedRun M (fun t s e => L.Grants t s e ∧ G t s e) s₀ t s)
    (hi : L.Holds t s i l .exclusive) (hj : L.Holds t s j l mode) : j = i := by
  induction hrun generalizing i j mode with
  | refl =>
    obtain ⟨-, -, -, hmem⟩ := hi
    exact absurd hmem List.not_mem_nil
  | tail hr hs hg ih =>
    rcases hi.before hr.run hs with hi | ⟨rfl, hacq⟩
    · rcases hj.before hr.run hs with hj | ⟨rfl, hacq⟩
      · exact ih hi hj
      · have hfree := hg.1 l mode hacq
        cases mode with
        | exclusive => exact absurd hi (hfree i _)
        | shared => exact absurd hi (hfree i)
    · rcases hj.before hr.run hs with hj | ⟨rfl, -⟩
      · exact absurd hj (hg.1 l _ hacq j mode)
      · rfl

/-! ## 2. Programs -/

section Programs

variable {R : Lock → Lock → Prop} {P : Op → Prop} {A : ∀ o, Ans o → Prop}
  {held : List (Lock × Mode)}

theorem Keeps.ret (a : α) : L.Keeps R P A held (.ret a : Prog Op Ans α) := rfl

theorem Keeps.panic : L.Keeps R P A held (.panic : Prog Op Ans α) := trivial

theorem Keeps.mono {R' : Lock → Lock → Prop} {P' : Op → Prop} {p : Prog Op Ans α}
    (hp : L.Keeps R P A held p) (hR : ∀ l' l, R l' l → R' l' l) (hP : ∀ o, P o → P' o) :
    L.Keeps R' P' A held p :=
  Prog.Follows.weaken hp (fun _ o h => ⟨hP o h.1, fun x hx y hy => hR _ _ (h.2 x hx y hy)⟩)
    (fun _ => id) rfl

theorem Keeps.all {p : Prog Op Ans α} (hp : L.Keeps R P (fun _ _ => True) held p) : p.All P :=
  Prog.Follows.all hp fun _ _ h => h.1

/-- **The sequence rule.** -/
theorem Keeps.bind {p : Prog Op Ans α} {f : α → Prog Op Ans β} (hp : L.Keeps R P A held p)
    (hf : ∀ a, L.Keeps R P A held (f a)) : L.Keeps R P A held (p.bind f) := by
  refine Prog.Follows.bind (Prog.Follows.mono hp ?_)
  rintro a _ rfl
  exact hf a

theorem Keeps.discard {p : Prog Op Ans α} (hp : L.Keeps R P A held p) : L.Keeps R P A held p.discard :=
  hp.bind fun _ => Keeps.ret ()

/-- An operation that is about no lock. -/
theorem Keeps.op {o : Op} {k : Ans o → Prog Op Ans α} (hP : P o) (hacq : L.acquires o = none)
    (hrel : L.releases o = none) (hk : ∀ a, A o a → L.Keeps R P A held (k a)) :
    L.Keeps R P A held (.op o k) := by
  refine ⟨⟨hP, fun x hx => ?_⟩, fun a ha => ?_⟩
  · rw [hacq] at hx
    cases hx
  · have hnext : L.next held (⟨o, some a⟩ : Call Ans) = held := by
      simp only [next, hacq, hrel]
    exact (congrArg (fun γ => Prog.Follows (L.nesting R P) A γ (k a) fun _ held' => held' = held)
      hnext).mpr (hk a ha)

/-- **The guard rule.**  A lock that may be nested in those held is taken, and given back on every
way out. -/
theorem Keeps.guarded {o o' : Op} {l : Lock} {mode : Mode} {p : Ans o → Prog Op Ans α}
    (hP : P o) (hP' : P o') (hacq : L.acquires o = some (l, mode))
    (hacq' : L.acquires o' = none) (hrel : L.releases o' = some l) (hR : ∀ y ∈ held, R y.1 l)
    (hp : ∀ a, A o a → L.Keeps R P A ((l, mode) :: held) (p a)) :
    L.Keeps R P A held (Prog.guarded o p o') := by
  refine Prog.Follows.guarded (P := fun _ held' => held' = (l, mode) :: held)
    ⟨hP, fun x hx => ?_⟩ (fun a ha => ?_) ?_
  · obtain rfl := Option.some.inj (hacq.symm.trans hx)
    exact hR
  · have hnext : L.next held (⟨o, some a⟩ : Call Ans) = (l, mode) :: held := by
      simp only [next, hacq]
    exact (congrArg (fun γ => Prog.Follows (L.nesting R P) A γ (p a) _) hnext).mpr (hp a ha)
  · rintro r _ rfl
    refine ⟨⟨hP', fun x hx => ?_⟩, fun a' _ => ?_⟩
    · rw [hacq'] at hx
      cases hx
    · show L.next ((l, mode) :: held) (⟨o', some a'⟩ : Call Ans) = held
      simp [next, hacq', hrel]

/-- The locks a thread holds are nested in one another, in the order it took them. -/
theorem held_pairwise {h : List (Call Ans)} {p q : Prog Op Ans Unit} (hp : L.Keeps R P A [] p)
    (hsteps : Prog.Steps p h q) (hA : ∀ c ∈ h, ∀ a, c.ans = some a → A c.op a) :
    (L.held h).Pairwise fun x y => R y.1 x.1 := by
  induction h using List.reverseRecOn generalizing q with
  | nil => exact List.Pairwise.nil
  | append_singleton h c ih =>
    obtain ⟨k, hk, rfl⟩ := hsteps.concat_inv
    have hA' : ∀ c ∈ h, ∀ a, c.ans = some a → A c.op a :=
      fun c' hc' => hA c' (List.mem_append_left _ hc')
    have hpair := ih hk hA'
    have hheld : L.held (h ++ [c]) = L.next (L.held h) c := by
      simp [held]
    rw [hheld]
    unfold next
    split
    · rename_i x hx
      refine List.pairwise_cons.mpr ⟨?_, hpair⟩
      rcases Prog.Follows.steps hp hk hA' with ⟨hpanic, -⟩ | hfollows
      · cases hpanic
      · exact hfollows.1.2 x hx
    · split
      · exact hpair.sublist List.eraseP_sublist
      · exact hpair

end Programs

/-! ## 3. Runs -/

section Nested

variable {R : Lock → Lock → Prop} {P : Op → Prop} {A : ∀ o, Ans o → Prop}
  (hs : ∀ p ∈ s₀.threads, L.Keeps R P A [] p)
  (hfork : ∀ o p, M.fork o = some p → L.Keeps R P A [] p) (hrun : Run M s₀ t s)
  (hA : ∀ e ∈ t, ∀ a, e.call.ans = some a → A e.call.op a)

include hs hfork hrun hA

/-- **A thread asks only for locks that may be nested in those it holds.** -/
theorem Requests.nested {l l' : Lock} {mode mode' : Mode} (hr : L.Requests s i l mode)
    (hh : L.Holds t s i l' mode') : R l' l := by
  obtain ⟨o, k, hq, ho⟩ := hr
  obtain ⟨-, -, -, hmem⟩ := hh
  rcases hrun.follows hs hfork hA hq with ⟨hpanic, -⟩ | hfollows
  · cases hpanic
  · exact hfollows.1.2 _ ho _ hmem

/-- **Two locks of one thread** are nested one in the other. -/
theorem Holds.nested {l l' : Lock} {mode mode' : Mode} (hl : L.Holds t s i l mode)
    (hl' : L.Holds t s i l' mode') (hne : l ≠ l') : R l l' ∨ R l' l := by
  obtain ⟨q, hq, -, hm⟩ := hl
  obtain ⟨-, -, -, hm'⟩ := hl'
  obtain ⟨p, hsteps, ho⟩ := hrun.origin hq
  have hp : L.Keeps R P A [] p := by
    rcases ho with ho | ⟨e, -, hf⟩
    · exact hs p (List.mem_of_getElem? ho)
    · exact hfork _ _ hf
  have hpair := held_pairwise hp hsteps fun c hc a ha => by
    obtain ⟨e, he, -, rfl⟩ := mem_history.mp hc
    exact hA e he a ha
  have hor : (L.held (history i t)).Pairwise fun x y => R x.1 y.1 ∨ R y.1 x.1 :=
    hpair.imp fun h => Or.inr h
  have : Std.Symm fun x y : Lock × Mode => R x.1 y.1 ∨ R y.1 x.1 := ⟨fun _ _ => Or.symm⟩
  exact hor.forall hm hm' fun heq => hne (congrArg Prod.fst heq)

/-! ## 4. Ranks -/

variable {rank : Lock → Nat} (hrank : ∀ l' l, R l' l → rank l' < rank l)

include hrank

/-- Along a chain of waiting threads the locks asked for have growing ranks. -/
theorem rank_lt_of_chain (h : Relation.TransGen (L.WaitsFor t s) i j) {l l' : Lock}
    {mode mode' : Mode} (hi : L.Requests s i l mode) (hj : L.Requests s j l' mode') :
    rank l < rank l' := by
  induction h generalizing l' mode' with
  | single hw =>
    obtain ⟨l₀, _, _, hr, hh⟩ := hw
    obtain rfl := hi.unique hr
    exact hrank _ _ (hj.nested hs hfork hrun hA hh)
  | tail _ hw ih =>
    obtain ⟨l₀, _, _, hr, hh⟩ := hw
    exact (ih hr).trans (hrank _ _ (hj.nested hs hfork hrun hA hh))

/-- **No deadlock.**  No thread waits for itself, neither at once nor along a chain of threads
each waiting for the next. -/
theorem no_cycle (i : Nat) : ¬ Relation.TransGen (L.WaitsFor t s) i i := by
  intro h
  obtain ⟨j, ⟨l, mode, mode', hr, -⟩, -⟩ := Relation.TransGen.head'_iff.mp h
  exact absurd (rank_lt_of_chain hs hfork hrun hA hrank h hr hr) (lt_irrefl _)

/-- **Some thread can go on**, as long as there is one that has something to do. -/
theorem exists_ready {bound : Nat} (hbound : ∀ l, rank l < bound) {q : Prog Op Ans Unit}
    (hq : s.threads[i]? = some q) (hf : ¬ q.Finished) : ∃ j, L.Ready t s j := by
  by_contra hno
  push Not at hno
  -- a chain of waiting threads that goes on for ever asks for locks of ever higher rank
  have hchain : ∀ n, ∃ i l mode, L.Requests s i l mode ∧ n ≤ rank l := by
    intro n
    induction n with
    | zero =>
      obtain ⟨j, l, mode, mode', hr, -⟩ := (ready_or_waits hq hf).resolve_left (hno i)
      exact ⟨i, l, mode, hr, Nat.zero_le _⟩
    | succ n ih =>
      obtain ⟨i', l, mode, ⟨o, k, hq', ho⟩, hle⟩ := ih
      obtain ⟨j, l', mode', mode'', hr', hh⟩ := (ready_or_waits hq' id).resolve_left (hno i')
      obtain ⟨q', hqj, hfj, -⟩ := id hh
      obtain ⟨j', l'', mode₃, mode₄, hr'', -⟩ := (ready_or_waits hqj hfj).resolve_left (hno j)
      refine ⟨j, l'', mode₃, hr'', ?_⟩
      have hlt := hrank _ _ (hr''.nested hs hfork hrun hA hh)
      have hl : l' = l := Requests.unique ⟨o, k, hq', ho⟩ hr'
      rw [hl] at hlt
      omega
  obtain ⟨_, l, _, _, hle⟩ := hchain bound
  exact absurd (hbound l) (Nat.not_lt.mpr hle)

end Nested

end Locking

end Concurrency
