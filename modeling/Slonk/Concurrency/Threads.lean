/-
# Threads that interleave their operations

A `Machine` says what one operation does to the shared state: `exec o env σ` is the answer and
the next state, where `env` stands for whatever the outside world decides at that moment, and
the answer is `none` when the calling thread panics.  Each operation is atomic.  `fork` says
which operations start a new thread.

A system is a shared state and a list of threads, each the rest of its program.  A step picks
any thread that still has an operation to perform, so a `Run` is one interleaving; nothing is
assumed about the scheduler.  The file proves what a step changes (`StepTo.cases`,
`StepTo.self`, `StepTo.other`), that a run can be cut anywhere (`Run.split`, `Run.moment`),
that a thread's own calls are a `Steps` of its program whatever the others do (`Run.steps`), and
that what holds of every operation of every program holds along every run (`Run.all`).
-/
import Slonk.Concurrency.Prog

namespace Concurrency

/-- The meaning of the operations: `exec` is their effect, `fork` the threads they start. -/
structure Machine (Op : Type) (Ans : Op → Type) (σ Env : Type) where
  exec : (o : Op) → Env → σ → Option (Ans o) × σ
  fork : Op → Option (Prog Op Ans Unit)

/-- A shared state and the threads over it, by number. -/
structure Sys (Op : Type) (Ans : Op → Type) (σ : Type) where
  shared : σ
  threads : List (Prog Op Ans Unit)

/-- One step of a run: which thread, and the call it made. -/
structure Event {Op : Type} (Ans : Op → Type) where
  tid : Nat
  call : Call Ans

variable {Op : Type} {Ans : Op → Type} {σ Env : Type}

/-! ## 1. One step -/

/-- Thread `i` performs its pending operation.  `none` if it has none. -/
def Machine.step (M : Machine Op Ans σ Env) (i : Nat) (env : Env) (s : Sys Op Ans σ) :
    Option (Event Ans × Sys Op Ans σ) :=
  match s.threads[i]? with
  | some (.op o k) =>
    some (⟨i, ⟨o, (M.exec o env s.shared).1⟩⟩,
      ⟨(M.exec o env s.shared).2,
        s.threads.set i (Prog.resume k (M.exec o env s.shared).1) ++ (M.fork o).toList⟩)
  | _ => none

/-- Some thread takes a step, and the event is `e`. -/
def Machine.StepTo (M : Machine Op Ans σ Env) (s : Sys Op Ans σ) (e : Event Ans)
    (s' : Sys Op Ans σ) : Prop :=
  ∃ i env, M.step i env s = some (e, s')

/-- The calls of thread `i` in a trace. -/
def history (i : Nat) (t : List (Event Ans)) : List (Call Ans) :=
  t.filterMap fun e => if e.tid = i then some e.call else none

@[simp] theorem history_nil (i : Nat) : history i ([] : List (Event Ans)) = [] := rfl

theorem history_concat_self (t : List (Event Ans)) (e : Event Ans) :
    history e.tid (t ++ [e]) = history e.tid t ++ [e.call] := by
  simp [history]

theorem history_concat_other {i : Nat} (t : List (Event Ans)) {e : Event Ans}
    (h : e.tid ≠ i) : history i (t ++ [e]) = history i t := by
  simp [history, h]

theorem mem_history {i : Nat} {t : List (Event Ans)} {c : Call Ans} :
    c ∈ history i t ↔ ∃ e ∈ t, e.tid = i ∧ e.call = c := by
  simp only [history, List.mem_filterMap, Option.ite_none_right_eq_some, Option.some.injEq]

variable {M : Machine Op Ans σ Env} {s s' s'' : Sys Op Ans σ} {e : Event Ans}

/-- **What one step is**: the thread named by the event had an operation pending, performed
it, and is resumed with the answer; a thread the operation starts is appended. -/
theorem Machine.StepTo.cases (h : M.StepTo s e s') :
    ∃ k env, s.threads[e.tid]? = some (.op e.call.op k) ∧
      e.call.ans = (M.exec e.call.op env s.shared).1 ∧
      s'.shared = (M.exec e.call.op env s.shared).2 ∧
      s'.threads = s.threads.set e.tid (Prog.resume k e.call.ans)
        ++ (M.fork e.call.op).toList := by
  obtain ⟨i, env, h⟩ := h
  unfold Machine.step at h
  split at h
  · rename_i o k hp
    obtain ⟨rfl, rfl⟩ := Prod.mk.inj (Option.some.inj h)
    exact ⟨k, env, hp, rfl, rfl, rfl⟩
  · cases h

theorem Machine.StepTo.intro {o : Op} {k : Ans o → Prog Op Ans Unit} {i : Nat}
    (hp : s.threads[i]? = some (.op o k)) (env : Env) :
    M.StepTo s ⟨i, ⟨o, (M.exec o env s.shared).1⟩⟩
      ⟨(M.exec o env s.shared).2,
        s.threads.set i (Prog.resume k (M.exec o env s.shared).1) ++ (M.fork o).toList⟩ :=
  ⟨i, env, by simp only [Machine.step, hp]⟩

/-- A step does not touch the threads it is not about. -/
theorem Machine.StepTo.other (h : M.StepTo s e s') {i : Nat} (hi : i ≠ e.tid)
    (hlt : i < s.threads.length) : s'.threads[i]? = s.threads[i]? := by
  obtain ⟨k, env, -, -, -, hth⟩ := h.cases
  rw [hth, List.getElem?_append_left (by simpa using hlt), List.getElem?_set_ne hi.symm]

/-- The thread the step is about, before and after. -/
theorem Machine.StepTo.self (h : M.StepTo s e s') :
    ∃ k, s.threads[e.tid]? = some (.op e.call.op k) ∧
      s'.threads[e.tid]? = some (Prog.resume k e.call.ans) := by
  obtain ⟨k, env, hp, -, -, hth⟩ := h.cases
  have hlt : e.tid < s.threads.length := (List.getElem?_eq_some_iff.mp hp).1
  refine ⟨k, hp, ?_⟩
  rw [hth, List.getElem?_append_left (by simpa using hlt), List.getElem?_set_self hlt]

/-- What the step did to the shared state. -/
theorem Machine.StepTo.exec (h : M.StepTo s e s') :
    ∃ env, e.call.ans = (M.exec e.call.op env s.shared).1 ∧
      s'.shared = (M.exec e.call.op env s.shared).2 := by
  obtain ⟨k, env, -, hans, hsh, -⟩ := h.cases
  exact ⟨env, hans, hsh⟩

/-- The threads after a step: the old ones, and the one the operation started. -/
theorem Machine.StepTo.length (h : M.StepTo s e s') :
    s'.threads.length = s.threads.length + (M.fork e.call.op).toList.length := by
  obtain ⟨k, env, -, -, -, hth⟩ := h.cases
  rw [hth, List.length_append, List.length_set]

theorem Machine.StepTo.tid_lt (h : M.StepTo s e s') : e.tid < s.threads.length := by
  obtain ⟨k, hp, -⟩ := h.self
  exact (List.getElem?_eq_some_iff.mp hp).1

/-- Every thread after a step was there before, is the one that moved, or was just started. -/
theorem Machine.StepTo.thread_cases (h : M.StepTo s e s') {i : Nat} {p : Prog Op Ans Unit}
    (hp : s'.threads[i]? = some p) :
    (i ≠ e.tid ∧ s.threads[i]? = some p) ∨
      (i = e.tid ∧ ∃ k, s.threads[i]? = some (.op e.call.op k) ∧ p = Prog.resume k e.call.ans) ∨
      (i = s.threads.length ∧ M.fork e.call.op = some p) := by
  by_cases hi : i = e.tid
  · subst hi
    obtain ⟨k, hk, hk'⟩ := h.self
    exact Or.inr (Or.inl ⟨rfl, k, hk, Option.some.inj (hp.symm.trans hk')⟩)
  · by_cases hlt : i < s.threads.length
    · rw [h.other hi hlt] at hp
      exact Or.inl ⟨hi, hp⟩
    · obtain ⟨k, env, -, -, -, hth⟩ := h.cases
      rw [hth, List.getElem?_append_right (by simpa using hlt), List.length_set] at hp
      cases hf : M.fork e.call.op with
      | none => rw [hf] at hp; simp at hp
      | some q =>
        rw [hf] at hp
        have hz : i - s.threads.length = 0 := by
          have := (List.getElem?_eq_some_iff.mp hp).1
          simp at this
          omega
        rw [hz] at hp
        exact Or.inr (Or.inr ⟨by omega, hp⟩)

/-! ## 2. Runs -/

/-- `Run M s t s'`: the events `t`, in this order, lead from `s` to `s'`. -/
inductive Run (M : Machine Op Ans σ Env) (s : Sys Op Ans σ) :
    List (Event Ans) → Sys Op Ans σ → Prop
  | refl : Run M s [] s
  | tail {s' s'' : Sys Op Ans σ} {t : List (Event Ans)} {e : Event Ans} :
      Run M s t s' → M.StepTo s' e s'' → Run M s (t ++ [e]) s''

theorem Run.single (h : M.StepTo s e s') : Run M s [e] s' := Run.refl.tail h

/-- Runs compose, appending their events. -/
theorem Run.trans {t t' : List (Event Ans)} (h : Run M s t s') (h' : Run M s' t' s'') :
    Run M s (t ++ t') s'' := by
  induction h' with
  | refl => simpa using h
  | tail _ hstep ih => rw [← List.append_assoc]; exact ih.tail hstep

theorem Run.head {t : List (Event Ans)} (h : M.StepTo s e s') (h' : Run M s' t s'') :
    Run M s (e :: t) s'' := (Run.single h).trans h'

theorem Run.nil_inv (h : Run M s [] s') : s' = s := by
  generalize ht : ([] : List (Event Ans)) = t at h
  cases h with
  | refl => rfl
  | tail _ _ => simp at ht

theorem Run.concat_inv {t : List (Event Ans)} (h : Run M s (t ++ [e]) s'') :
    ∃ s', Run M s t s' ∧ M.StepTo s' e s'' := by
  generalize ht : t ++ [e] = t' at h
  cases h with
  | refl => simp at ht
  | tail hr hstep =>
    obtain ⟨rfl, he⟩ := List.append_inj' ht rfl
    obtain rfl := List.singleton_inj.mp he
    exact ⟨_, hr, hstep⟩

/-- **A run can be cut anywhere.** -/
theorem Run.split : ∀ {t' t : List (Event Ans)} {s'' : Sys Op Ans σ}, Run M s (t ++ t') s'' →
    ∃ s', Run M s t s' ∧ Run M s' t' s'' := by
  intro t'
  induction t' using List.reverseRecOn with
  | nil => exact fun h => ⟨_, by simpa using h, Run.refl⟩
  | append_singleton t' e ih =>
    intro t s'' h
    rw [← List.append_assoc] at h
    obtain ⟨m, hm, hstep⟩ := h.concat_inv
    obtain ⟨s', h₁, h₂⟩ := ih hm
    exact ⟨s', h₁, h₂.tail hstep⟩

/-- A moment of the run `t` from `s₀` to `s`: the events `t₁` lead to `m`, the event `e` to `m'`,
and the events `t₂` to the end. -/
structure Moment (M : Machine Op Ans σ Env) (s₀ : Sys Op Ans σ) (t : List (Event Ans))
    (s : Sys Op Ans σ) (t₁ : List (Event Ans)) (m : Sys Op Ans σ) (e : Event Ans)
    (m' : Sys Op Ans σ) (t₂ : List (Event Ans)) : Prop where
  split : t = t₁ ++ e :: t₂
  before : Run M s₀ t₁ m
  step : M.StepTo m e m'
  after : Run M m' t₂ s

theorem Moment.getElem? {s₀ m m' : Sys Op Ans σ} {t t₁ t₂ : List (Event Ans)} {e : Event Ans}
    (h : Moment M s₀ t s t₁ m e m' t₂) : t[t₁.length]? = some e := by
  rw [h.split, List.getElem?_append_right (Nat.le_refl _), Nat.sub_self, List.getElem?_cons_zero]

/-- Every event of a run is a moment of it. -/
theorem Run.moment {t t' : List (Event Ans)} (h : Run M s (t ++ e :: t') s'') :
    ∃ m m', Moment M s (t ++ e :: t') s'' t m e m' t' := by
  obtain ⟨m, h₁, h₂⟩ := h.split
  obtain ⟨m', h₂, h₃⟩ := Run.split (t := [e]) h₂
  obtain ⟨m₀, h₀, hstep⟩ := Run.concat_inv (t := []) h₂
  obtain rfl := h₀.nil_inv
  exact ⟨m₀, m', rfl, h₁, hstep, h₃⟩

/-- **An invariant of a run's own steps** holds all along the run, when each of its steps keeps
it, whatever other runs do. -/
theorem Run.along {s₀ : Sys Op Ans σ} {t : List (Event Ans)}
    {I : List (Event Ans) → Sys Op Ans σ → Prop} (hinit : I [] s₀)
    (hstep : ∀ t₁ m e m' t₂, Moment M s₀ t s t₁ m e m' t₂ → I t₁ m → I (t₁ ++ [e]) m')
    {m : Sys Op Ans σ} {t₁ t₂ : List (Event Ans)} (ht : t = t₁ ++ t₂) (h₁ : Run M s₀ t₁ m)
    (h₂ : Run M m t₂ s) : I t₁ m := by
  induction h₁ generalizing t₂ with
  | refl => exact hinit
  | @tail m m' t₁ e h₁ hs ih =>
    have ht' : t = t₁ ++ e :: t₂ := by rw [ht, List.append_assoc, List.singleton_append]
    exact hstep t₁ m e m' t₂ ⟨ht', h₁, hs, h₂⟩ (ih ht' (Run.head hs h₂))

/-- The invariant at a moment of the run. -/
theorem Moment.along {s₀ : Sys Op Ans σ} {t t₁ t₂ : List (Event Ans)} {m m' : Sys Op Ans σ}
    (h : Moment M s₀ t s t₁ m e m' t₂) {I : List (Event Ans) → Sys Op Ans σ → Prop}
    (hinit : I [] s₀)
    (hstep : ∀ t₁ m e m' t₂, Moment M s₀ t s t₁ m e m' t₂ → I t₁ m → I (t₁ ++ [e]) m') :
    I t₁ m :=
  Run.along hinit hstep h.split h.before (Run.head h.step h.after)

/-- **A thread sees only its own calls**: the rest of its program is what its own history
leaves of it, whatever the other threads do. -/
theorem Run.steps {t : List (Event Ans)} (h : Run M s t s') {i : Nat} {p : Prog Op Ans Unit}
    (hp : s.threads[i]? = some p) :
    ∃ q, s'.threads[i]? = some q ∧ Prog.Steps p (history i t) q := by
  induction h with
  | refl => exact ⟨p, hp, Prog.Steps.refl p⟩
  | @tail s' s'' t e _ hs ih =>
    obtain ⟨q, hq, hst⟩ := ih
    by_cases hi : i = e.tid
    · subst hi
      obtain ⟨k, hk, hk'⟩ := hs.self
      obtain rfl := Option.some.inj (hq.symm.trans hk)
      refine ⟨_, hk', ?_⟩
      rw [history_concat_self]
      exact hst.tail e.call.ans
    · refine ⟨q, ?_, ?_⟩
      · rw [hs.other hi (List.getElem?_eq_some_iff.mp hq).1, hq]
      · rw [history_concat_other t (Ne.symm hi)]
        exact hst

/-- A thread that has moved is still there. -/
theorem Run.thread_of_mem {t : List (Event Ans)} (h : Run M s t s') (he : e ∈ t) :
    ∃ q, s'.threads[e.tid]? = some q := by
  obtain ⟨t₁, t₂, rfl⟩ := List.append_of_mem he
  obtain ⟨m, m', hm⟩ := h.moment
  obtain ⟨k, -, hk⟩ := hm.step.self
  obtain ⟨q, hq, -⟩ := hm.after.steps hk
  exact ⟨q, hq⟩

/-- **What holds of every operation of every program holds along every run**, provided that
the threads it starts respect it too. -/
theorem Run.all {P : Op → Prop} (hfork : ∀ o p, P o → M.fork o = some p → p.All P)
    (hs : ∀ p ∈ s.threads, p.All P) {t : List (Event Ans)} (h : Run M s t s') :
    (∀ e ∈ t, P e.call.op) ∧ ∀ p ∈ s'.threads, p.All P := by
  induction h with
  | refl => exact ⟨nofun, hs⟩
  | @tail s' s'' t e _ hstep ih =>
    obtain ⟨ht, hs'⟩ := ih
    obtain ⟨k, hk, -⟩ := hstep.self
    have he : P e.call.op := (hs' _ (List.mem_of_getElem? hk)).1
    constructor
    · intro e' he'
      rcases List.mem_append.mp he' with he' | he'
      · exact ht e' he'
      · obtain rfl := List.mem_singleton.mp he'
        exact he
    · intro p hp
      obtain ⟨i, hi⟩ := List.mem_iff_getElem?.mp hp
      rcases hstep.thread_cases hi with ⟨-, hp⟩ | ⟨-, k', hk', rfl⟩ | ⟨-, hp⟩
      · exact hs' p (List.mem_of_getElem? hp)
      · exact (hs' _ (List.mem_of_getElem? hk')).resume _
      · exact hfork _ p he hp

/-! ## 3. Systems that start no thread -/

/-- No thread of the system can start another one. -/
def NoFork (M : Machine Op Ans σ Env) (s : Sys Op Ans σ) : Prop :=
  ∀ p ∈ s.threads, p.All fun o => M.fork o = none

/-- The threads of such a system are the ones it started with. -/
theorem NoFork.run {t : List (Event Ans)} (hn : NoFork M s) (h : Run M s t s') :
    NoFork M s' ∧ s'.threads.length = s.threads.length := by
  have hfork : ∀ o p, M.fork o = none → M.fork o = some p → p.All fun o => M.fork o = none := by
    intro o p ho hp
    rw [ho] at hp
    cases hp
  refine ⟨(h.all hfork hn).2, ?_⟩
  induction h with
  | refl => rfl
  | @tail s' s'' t e hr hs ih =>
    obtain ⟨k, hk, -⟩ := hs.self
    have hf : M.fork e.call.op = none := ((hr.all hfork hn).2 _ (List.mem_of_getElem? hk)).1
    rw [hs.length, hf, ih]
    rfl

/-- Every thread of a reachable state is what its own history left of its program. -/
theorem NoFork.steps {t : List (Event Ans)} (hn : NoFork M s) (h : Run M s t s') {i : Nat}
    {q : Prog Op Ans Unit} (hq : s'.threads[i]? = some q) :
    ∃ p, s.threads[i]? = some p ∧ Prog.Steps p (history i t) q := by
  have hlt : i < s.threads.length := by
    rw [← (hn.run h).2]
    exact (List.getElem?_eq_some_iff.mp hq).1
  obtain ⟨q', hq', hst⟩ := h.steps (List.getElem?_eq_getElem hlt)
  obtain rfl := Option.some.inj (hq.symm.trans hq')
  exact ⟨_, List.getElem?_eq_getElem hlt, hst⟩

/-! ## 4. Runs whose steps meet a condition -/

/-- A run each of whose steps meets `G`, which may look at the events so far, the state and the
step. -/
inductive GuardedRun (M : Machine Op Ans σ Env)
    (G : List (Event Ans) → Sys Op Ans σ → Event Ans → Prop) (s : Sys Op Ans σ) :
    List (Event Ans) → Sys Op Ans σ → Prop
  | refl : GuardedRun M G s [] s
  | tail {s' s'' : Sys Op Ans σ} {t : List (Event Ans)} {e : Event Ans} :
      GuardedRun M G s t s' → M.StepTo s' e s'' → G t s' e → GuardedRun M G s (t ++ [e]) s''

theorem GuardedRun.run {G : List (Event Ans) → Sys Op Ans σ → Event Ans → Prop}
    {t : List (Event Ans)} (h : GuardedRun M G s t s') : Run M s t s' := by
  induction h with
  | refl => exact Run.refl
  | tail _ hs _ ih => exact ih.tail hs

theorem GuardedRun.concat_inv {G : List (Event Ans) → Sys Op Ans σ → Event Ans → Prop}
    {t : List (Event Ans)} (h : GuardedRun M G s (t ++ [e]) s'') :
    ∃ s', GuardedRun M G s t s' ∧ M.StepTo s' e s'' ∧ G t s' e := by
  generalize ht : t ++ [e] = t' at h
  cases h with
  | refl => simp at ht
  | tail hr hstep hg =>
    obtain ⟨rfl, he⟩ := List.append_inj' ht rfl
    obtain rfl := List.singleton_inj.mp he
    exact ⟨_, hr, hstep, hg⟩

/-- **Every event of such a run is a moment of it**, at which its condition is met. -/
theorem GuardedRun.moment {G : List (Event Ans) → Sys Op Ans σ → Event Ans → Prop}
    {t t' : List (Event Ans)} (h : GuardedRun M G s (t ++ e :: t') s'') :
    ∃ m m', GuardedRun M G s t m ∧ G t m e ∧ Moment M s (t ++ e :: t') s'' t m e m' t' := by
  induction t' using List.reverseRecOn generalizing s'' with
  | nil =>
    obtain ⟨m, hm, hs, hg⟩ := h.concat_inv
    exact ⟨m, s'', hm, hg, rfl, hm.run, hs, .refl⟩
  | append_singleton t' e' ih =>
    have heq : t ++ e :: (t' ++ [e']) = (t ++ e :: t') ++ [e'] := by simp
    rw [heq] at h
    obtain ⟨m₂, h₂, hs₂, -⟩ := h.concat_inv
    obtain ⟨m, m', hm, hg, hmoment⟩ := ih h₂
    exact ⟨m, m', hm, hg, rfl, hmoment.before, hmoment.step, hmoment.after.tail hs₂⟩

/-- A weaker condition. -/
theorem GuardedRun.mono {G G' : List (Event Ans) → Sys Op Ans σ → Event Ans → Prop}
    {t : List (Event Ans)} (h : GuardedRun M G s t s') (hG : ∀ t s e, G t s e → G' t s e) :
    GuardedRun M G' s t s' := by
  induction h with
  | refl => exact .refl
  | tail _ hs hg ih => exact ih.tail hs (hG _ _ _ hg)

/-- What the condition says of each step alone holds of every event. -/
theorem GuardedRun.forall_mem {G : List (Event Ans) → Sys Op Ans σ → Event Ans → Prop}
    {P : Event Ans → Prop} {t : List (Event Ans)} (h : GuardedRun M G s t s')
    (hG : ∀ t s e s', G t s e → M.StepTo s e s' → P e) : ∀ e ∈ t, P e := by
  induction h with
  | refl => exact fun e he => absurd he List.not_mem_nil
  | tail _ hs hg ih =>
    intro e he
    rcases List.mem_append.mp he with he | he
    · exact ih e he
    · obtain rfl := List.mem_singleton.mp he
      exact hG _ _ _ _ hg hs

/-! ## 5. Schedules

A schedule names the thread and the outside world's decision for each step; a thread with
nothing to do is skipped.  Every schedule is a run, and a run on concrete data is computed. -/

/-- The events of a schedule and the state it ends in. -/
def Machine.runSchedule (M : Machine Op Ans σ Env) :
    List (Nat × Env) → Sys Op Ans σ → List (Event Ans) × Sys Op Ans σ
  | [], s => ([], s)
  | (i, env) :: cs, s =>
    match M.step i env s with
    | some (e, s') => (e :: (M.runSchedule cs s').1, (M.runSchedule cs s').2)
    | none => M.runSchedule cs s

theorem run_runSchedule : ∀ (cs : List (Nat × Env)) (s : Sys Op Ans σ),
    Run M s (M.runSchedule cs s).1 (M.runSchedule cs s).2
  | [], s => Run.refl
  | (i, env) :: cs, s => by
    unfold Machine.runSchedule
    split
    · rename_i e s' h
      exact Run.head ⟨i, env, h⟩ (run_runSchedule cs s')
    · exact run_runSchedule cs s

/-- The same with a check before each step is kept: `none` if a step is not there, or fails it. -/
def Machine.runChecked (M : Machine Op Ans σ Env)
    (check : List (Event Ans) → Sys Op Ans σ → Event Ans → Bool) :
    List (Nat × Env) → List (Event Ans) → Sys Op Ans σ → Option (List (Event Ans) × Sys Op Ans σ)
  | [], t, s => some (t, s)
  | (i, env) :: cs, t, s =>
    match M.step i env s with
    | some (e, s') => if check t s e then M.runChecked check cs (t ++ [e]) s' else none
    | none => none

/-- **A schedule that passes its check is a run whose steps meet the condition.** -/
theorem guardedRun_runChecked {check : List (Event Ans) → Sys Op Ans σ → Event Ans → Bool}
    {G : List (Event Ans) → Sys Op Ans σ → Event Ans → Prop} {s₀ : Sys Op Ans σ}
    (hG : ∀ t s e, check t s e = true → G t s e) :
    ∀ {cs : List (Nat × Env)} {t t' : List (Event Ans)} {s s' : Sys Op Ans σ},
      GuardedRun M G s₀ t s → M.runChecked check cs t s = some (t', s') → GuardedRun M G s₀ t' s'
  | [], t, t', s, s', hr, h => by
    obtain ⟨rfl, rfl⟩ := Prod.mk.inj (Option.some.inj h)
    exact hr
  | (i, env) :: cs, t, t', s, s', hr, h => by
    unfold Machine.runChecked at h
    split at h
    · rename_i e m hstep
      split at h
      · rename_i hc
        exact guardedRun_runChecked hG (hr.tail ⟨i, env, hstep⟩ (hG _ _ _ hc)) h
      · cases h
    · cases h

/-- A run that is computed, and what is computed of its end. -/
theorem exists_guardedRun {C : List (Event Ans) → Sys Op Ans σ → Event Ans → Bool}
    {G : List (Event Ans) → Sys Op Ans σ → Event Ans → Prop}
    (hG : ∀ t s e, C t s e = true → G t s e) (cs : List (Nat × Env))
    {P : List (Event Ans) → Sys Op Ans σ → Bool}
    (h : ((M.runChecked C cs [] s).any fun r => P r.1 r.2) = true) :
    ∃ t s', GuardedRun M G s t s' ∧ P t s' = true := by
  obtain ⟨⟨t, s'⟩, hr, hp⟩ := (Option.any_eq_true _ _).mp h
  exact ⟨t, s', guardedRun_runChecked hG .refl hr, hp⟩

end Concurrency
