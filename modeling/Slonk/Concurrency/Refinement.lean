/-
# The call at which an operation takes effect

A program over small operations stands for one over large ones: of the calls a large operation is made
of, one is the one that has its effect, and the others prepare it or clear up.  `commit` says which, and
of which large call it is the effect; a call that commits nothing is silent.

* `Prog.Implements commit A p' p`: answered as `A` allows, each call of `p'` is silent, or is the call
  that `p` makes next, and `p'` ends as `p` does.  Sequencing respects it (`Implements.bind`), so if
  each `f o` implements the single operation `o`, then `p.expand f` implements `p`
  (`Implements.expand`).
* `Run.refines`: a system of such programs over one machine is a system of the others over another
  one.  The threads have the same numbers, the trace of the second is what the first commits, and a
  relation of the two shared states that the steps keep holds at the end.  A thread may also be silent
  altogether; and one that is started on the way stands ready from the beginning in the other system.
-/
import Slonk.Concurrency.Handlers

namespace Concurrency

variable {Op Op' : Type} {Ans : Op → Type} {Ans' : Op' → Type} {σ σ' Env Env' ε α β : Type}

namespace Prog

/-! ## 1. Programs -/

/-- The calls of the first program commit those of the second, one for one. -/
def Implements (commit : Call Ans' → Option (Call Ans)) (A : ∀ o, Option (Ans' o) → Prop) :
    Prog Op' Ans' α → Prog Op Ans α → Prop
  | ret a, p => p = ret a
  | panic, p => p = panic
  | op o k, p =>
    (∀ a, A o (some a) →
      (commit ⟨o, some a⟩ = none → (k a).Implements commit A p) ∧
      ∀ c, commit ⟨o, some a⟩ = some c →
        ∃ k', p = op c.op k' ∧ (k a).Implements commit A (resume k' c.ans)) ∧
    (A o none → ∃ c k', commit ⟨o, none⟩ = some c ∧ p = op c.op k' ∧ c.ans = none)

variable {commit : Call Ans' → Option (Call Ans)} {A : ∀ o, Option (Ans' o) → Prop}

/-- A silent call. -/
theorem Implements.silent {o : Op'} {k : Ans' o → Prog Op' Ans' α} {p : Prog Op Ans α}
    (h : (op o k).Implements commit A p) {x : Option (Ans' o)} (hx : A o x)
    (hc : commit ⟨o, x⟩ = none) : (resume k x).Implements commit A p := by
  cases x with
  | some a => exact (h.1 a hx).1 hc
  | none =>
    obtain ⟨c, _, hcommit, -⟩ := h.2 hx
    rw [hc] at hcommit
    cases hcommit

/-- A call that commits. -/
theorem Implements.commits {o : Op'} {k : Ans' o → Prog Op' Ans' α} {p : Prog Op Ans α}
    (h : (op o k).Implements commit A p) {x : Option (Ans' o)} (hx : A o x) {c : Call Ans}
    (hc : commit ⟨o, x⟩ = some c) :
    ∃ k', p = op c.op k' ∧ (resume k x).Implements commit A (resume k' c.ans) := by
  cases x with
  | some a => exact (h.1 a hx).2 c hc
  | none =>
    obtain ⟨c', k', hcommit, hp, hnone⟩ := h.2 hx
    obtain rfl := Option.some.inj (hc.symm.trans hcommit)
    exact ⟨k', hp, by rw [hnone]; rfl⟩

/-- **What the second program has done** while the first made these calls. -/
theorem Implements.steps {p' q' : Prog Op' Ans' α} {p : Prog Op Ans α} {h : List (Call Ans')}
    (hp : p'.Implements commit A p) (hs : Steps p' h q') (hA : ∀ c ∈ h, A c.op c.ans) :
    ∃ q, Steps p (h.filterMap commit) q ∧ q'.Implements commit A q := by
  induction hs generalizing p with
  | refl p' => exact ⟨p, .refl p, hp⟩
  | @head o k x h q' _ ih =>
    rw [List.forall_mem_cons] at hA
    cases hc : commit ⟨o, x⟩ with
    | none =>
      obtain ⟨q, hq, hi⟩ := ih (hp.silent hA.1 hc) hA.2
      exact ⟨q, by rwa [List.filterMap_cons_none hc], hi⟩
    | some c =>
      obtain ⟨k', rfl, hk⟩ := hp.commits hA.1 hc
      obtain ⟨q, hq, hi⟩ := ih hk hA.2
      exact ⟨q, by rw [List.filterMap_cons_some hc]; exact hq.head, hi⟩

/-- **The sequence rule.** -/
theorem Implements.bind {p' : Prog Op' Ans' α} {p : Prog Op Ans α} {g : α → Prog Op' Ans' β}
    {f : α → Prog Op Ans β} (hp : p'.Implements commit A p)
    (hf : ∀ a, (g a).Implements commit A (f a)) :
    (p'.bind g).Implements commit A (p.bind f) := by
  induction p' generalizing p with
  | ret a =>
    obtain rfl := hp
    exact hf a
  | panic =>
    obtain rfl := hp
    exact rfl
  | op o k ih =>
    refine ⟨fun a ha => ⟨fun hc => ih a ((hp.1 a ha).1 hc), fun c hc => ?_⟩, fun hnone => ?_⟩
    · obtain ⟨k', rfl, hk⟩ := (hp.1 a ha).2 c hc
      exact ⟨_, rfl, by rw [resume_bind]; exact ih a hk⟩
    · obtain ⟨c, k', hc, rfl, hans⟩ := hp.2 hnone
      exact ⟨c, _, hc, rfl, hans⟩

/-- **Each operation as a program** that implements it. -/
theorem Implements.expand {f : ∀ o, Prog Op' Ans' (Ans o)}
    (hf : ∀ o, (f o).Implements commit A (op o ret)) (p : Prog Op Ans α) :
    (p.expand f).Implements commit A p := by
  induction p with
  | ret a => rfl
  | panic => rfl
  | op o k ih => exact (hf o).bind ih

/-- A silent call before a program. -/
theorem Implements.cons_silent {o : Op'} {k : Ans' o → Prog Op' Ans' α} {p : Prog Op Ans α}
    (hnone : ¬ A o none) (hc : ∀ x, commit ⟨o, x⟩ = none)
    (hk : ∀ a, A o (some a) → (k a).Implements commit A p) :
    (op o k).Implements commit A p :=
  ⟨fun a ha => ⟨fun _ => hk a ha, fun c h => by rw [hc] at h; cases h⟩, fun h => absurd h hnone⟩

/-- The call that commits, before a program. -/
theorem Implements.cons_commit {o' : Op'} {o : Op} {k' : Ans' o' → Prog Op' Ans' α}
    {k : Ans o → Prog Op Ans α} {g : Ans' o' → Ans o}
    (hc : ∀ x, commit ⟨o', x⟩ = some ⟨o, x.map g⟩)
    (hk : ∀ a, A o' (some a) → (k' a).Implements commit A (k (g a))) :
    (op o' k').Implements commit A (op o k) := by
  refine ⟨fun a ha => ⟨fun h => ?_, fun c h => ?_⟩, fun _ => ⟨_, k, hc none, rfl, rfl⟩⟩
  · rw [hc] at h
    cases h
  · obtain rfl := Option.some.inj ((hc _).symm.trans h)
    exact ⟨k, rfl, hk a ha⟩

/-- **A block between two silent operations.** -/
theorem Implements.guarded {o o' : Op'} {p' : Ans' o → Prog Op' Ans' α} {p : Prog Op Ans α}
    (ho : ¬ A o none) (hc : ∀ x, commit ⟨o, x⟩ = none)
    (hp : ∀ a, A o (some a) → (p' a).Implements commit A p) (ho' : ¬ A o' none)
    (hc' : ∀ x, commit ⟨o', x⟩ = none) : (guarded o p' o').Implements commit A p := by
  refine .cons_silent ho hc fun a ha => ?_
  have := (hp a ha).bind (g := fun r => op o' fun _ => ret r) (f := ret) fun r =>
    .cons_silent ho' hc' fun _ _ => rfl
  rwa [bind_pure_right] at this

/-- **Each operation as one other**, with the same answers and the same effects. -/
theorem Implements.rename {Op₁ : Type} {Ans₁ : Op₁ → Type} {g : Op' → Op₁}
    {r : ∀ o, Ans₁ (g o) → Ans' o} {commit₁ : Call Ans₁ → Option (Call Ans)}
    {A₁ : ∀ o, Option (Ans₁ o) → Prop}
    (hA : ∀ o x, A₁ (g o) x → A o (x.map (r o)))
    (hc : ∀ o x, commit₁ ⟨g o, x⟩ = commit ⟨o, x.map (r o)⟩) {p' : Prog Op' Ans' α}
    {p : Prog Op Ans α} (hp : p'.Implements commit A p) :
    (p'.expand fun o => .op (g o) fun a => .ret (r o a)).Implements commit₁ A₁ p := by
  induction p' generalizing p with
  | ret a => exact hp
  | panic => exact hp
  | op o k ih =>
    refine ⟨fun a ha => ⟨fun h => ?_, fun c h => ?_⟩, fun hnone => ?_⟩
    · exact ih _ ((hp.1 _ (hA o (some a) ha)).1 ((hc o (some a)).symm.trans h))
    · obtain ⟨k', hk', hi⟩ := (hp.1 _ (hA o (some a) ha)).2 c ((hc o (some a)).symm.trans h)
      exact ⟨k', hk', ih _ hi⟩
    · obtain ⟨c, k', h, hp'⟩ := hp.2 (hA o none hnone)
      exact ⟨c, k', (hc o none).trans h, hp'⟩

end Prog

/-! ## 2. Systems -/

section Systems

variable {M' : Machine Op' Ans' σ' Env'} {M : Machine Op Ans σ Env} {s₀' s' : Sys Op' Ans' σ'}
  {s₀ s : Sys Op Ans σ} {t : List (Event Ans')} {commit : Event Ans' → Option (Call Ans)}
  {A : ∀ o, Option (Ans' o) → Prop} {R : σ' → σ → Prop} {G : Event Ans' → Prop}
  {Q : Prog Op Ans Unit → Prop}

/-- What the event commits, as an event of the same thread. -/
def committed (commit : Event Ans' → Option (Call Ans)) (e : Event Ans') : Option (Event Ans) :=
  (commit e).map fun c => ⟨e.tid, c⟩

/-- Thread `i` implements the other program, or never commits anything. -/
def Stands (commit : Event Ans' → Option (Call Ans)) (A : ∀ o, Option (Ans' o) → Prop) (i : Nat)
    (q' : Prog Op' Ans' Unit) (q : Prog Op Ans Unit) : Prop :=
  q'.Implements (fun c => commit ⟨i, c⟩) A q ∨ ∀ c, commit ⟨i, c⟩ = none

/-- Threads that never move can be added to a run that starts none. -/
theorem Run.extend {t : List (Event Ans)} (h : Run M s₀ t s)
    (hfork : ∀ e ∈ t, M.fork e.call.op = none) (ps : List (Prog Op Ans Unit)) :
    Run M ⟨s₀.shared, s₀.threads ++ ps⟩ t ⟨s.shared, s.threads ++ ps⟩ := by
  induction h with
  | refl => exact .refl
  | @tail m m' t e _ hs ih =>
    have hrun := ih fun e he => hfork e (List.mem_append_left _ he)
    have hnone : M.fork e.call.op = none := hfork e (by simp)
    obtain ⟨k, env, hk, hans, hshared, hthreads⟩ := hs.cases
    have hlt : e.tid < m.threads.length := (List.getElem?_eq_some_iff.mp hk).1
    have hk' : (m.threads ++ ps)[e.tid]? = some (.op e.call.op k) := by
      rw [List.getElem?_append_left hlt, hk]
    have hstep := Machine.StepTo.intro (M := M) (s := ⟨m.shared, m.threads ++ ps⟩) hk' env
    rw [hnone, ← hans, List.set_append_left _ _ hlt] at hstep
    rw [hnone] at hthreads
    refine hrun.tail ?_
    rw [hshared, hthreads]
    simpa using hstep

/-- Such a run has the threads it started with. -/
theorem Run.length_eq {t : List (Event Ans)} (h : Run M s₀ t s)
    (hfork : ∀ e ∈ t, M.fork e.call.op = none) : s.threads.length = s₀.threads.length := by
  induction h with
  | refl => rfl
  | @tail m m' t e _ hs ih =>
    have hnone : M.fork e.call.op = none := hfork e (by simp)
    rw [hs.length, hnone, ih fun e he => hfork e (List.mem_append_left _ he)]
    rfl

/-- The second system, with threads `ps` that stand ready for those the first one starts, has made the
calls that the first has committed. -/
structure Refined (M : Machine Op Ans σ Env) (commit : Event Ans' → Option (Call Ans))
    (A : ∀ o, Option (Ans' o) → Prop) (R : σ' → σ → Prop) (s₀ : Sys Op Ans σ)
    (ps : List (Prog Op Ans Unit)) (t : List (Event Ans')) (s' : Sys Op' Ans' σ')
    (s : Sys Op Ans σ) : Prop where
  run : Run M ⟨s₀.shared, s₀.threads ++ ps⟩ (t.filterMap (committed commit)) s
  noFork : ∀ e ∈ t.filterMap (committed commit), M.fork e.call.op = none
  shared : R s'.shared s.shared
  length : s.threads.length = s'.threads.length
  threads : ∀ i q' q, s'.threads[i]? = some q' → s.threads[i]? = some q → Stands commit A i q' q

/-- A thread that is started. -/
theorem Refined.extend {ps : List (Prog Op Ans Unit)} (h : Refined M commit A R s₀ ps t s' s)
    {p' : Prog Op' Ans' Unit} {p : Prog Op Ans Unit} (hp : Stands commit A s'.threads.length p' p) :
    Refined M commit A R s₀ (ps ++ [p]) t ⟨s'.shared, s'.threads ++ [p']⟩
      ⟨s.shared, s.threads ++ [p]⟩ := by
  refine ⟨?_, h.noFork, h.shared, by simp [h.length], fun i q' q hq' hq => ?_⟩
  · simpa using h.run.extend h.noFork [p]
  · by_cases hlt : i < s'.threads.length
    · rw [List.getElem?_append_left hlt] at hq'
      rw [List.getElem?_append_left (h.length ▸ hlt)] at hq
      exact h.threads i q' q hq' hq
    · rw [List.getElem?_append_right (Nat.not_lt.mp hlt)] at hq'
      rw [List.getElem?_append_right (h.length ▸ Nat.not_lt.mp hlt), h.length] at hq
      have hi : i = s'.threads.length := by
        have := (List.getElem?_eq_some_iff.mp hq').1
        simp only [List.length_singleton] at this
        omega
      subst hi
      rw [Nat.sub_self] at hq' hq
      obtain rfl := Option.some.inj hq'
      obtain rfl := Option.some.inj hq
      exact hp

/-- **One event**: nothing happens in the second system, or the call it commits. -/
theorem Refined.step {ps : List (Prog Op Ans Unit)} {m : Sys Op' Ans' σ'} {e : Event Ans'}
    (h : Refined M commit A R s₀ ps t s' s) (hs : M'.StepTo s' e m) (hA : A e.call.op e.call.ans)
    (hsilent : commit e = none → R m.shared s.shared)
    (hcommit : ∀ c, commit e = some c → M.fork c.op = none ∧
      ∃ env, c.ans = (M.exec c.op env s.shared).1 ∧ R m.shared (M.exec c.op env s.shared).2) :
    ∃ s₁, Refined M commit A R s₀ ps (t ++ [e])
      ⟨m.shared, m.threads.take s'.threads.length⟩ s₁ := by
  obtain ⟨k', -, hk, -, -, hthreads⟩ := hs.cases
  have hlt : e.tid < s'.threads.length := hs.tid_lt
  have htake : m.threads.take s'.threads.length
      = s'.threads.set e.tid (Prog.resume k' e.call.ans) := by
    rw [hthreads, List.take_left' (by simp)]
  obtain ⟨q, hq⟩ : ∃ q, s.threads[e.tid]? = some q :=
    ⟨_, List.getElem?_eq_getElem (h.length ▸ hlt)⟩
  have hstands := h.threads e.tid _ q hk hq
  -- what the other threads stand for has not changed
  have hother : ∀ q₁, Stands commit A e.tid (Prog.resume k' e.call.ans) q₁ →
      ∀ i q' q₂, (s'.threads.set e.tid (Prog.resume k' e.call.ans))[i]? = some q' →
        (s.threads.set e.tid q₁)[i]? = some q₂ → Stands commit A i q' q₂ := by
    intro q₁ hq₁ i q' q₂ hq' hq₂
    by_cases hi : e.tid = i
    · subst hi
      rw [List.getElem?_set_self hlt] at hq'
      rw [List.getElem?_set_self (h.length ▸ hlt)] at hq₂
      obtain rfl := Option.some.inj hq'
      obtain rfl := Option.some.inj hq₂
      exact hq₁
    · rw [List.getElem?_set_ne hi] at hq' hq₂
      exact h.threads i q' q₂ hq' hq₂
  cases hc : commit e with
  | none =>
    have hlast : [e].filterMap (committed commit) = [] := by simp [committed, hc]
    have hafter : Stands commit A e.tid (Prog.resume k' e.call.ans) q :=
      hstands.imp_left fun hi => hi.silent hA hc
    refine ⟨s, ?_, ?_, hsilent hc, ?_, ?_⟩
    · rw [List.filterMap_append, hlast, List.append_nil]
      exact h.run
    · rw [List.filterMap_append, hlast, List.append_nil]
      exact h.noFork
    · rw [htake, List.length_set, h.length]
    · rw [htake]
      intro i q' q₂ hq' hq₂
      refine hother q hafter i q' q₂ hq' ?_
      obtain ⟨hlt', rfl⟩ := List.getElem?_eq_some_iff.mp hq
      rwa [List.set_getElem_self]
  | some c =>
    have hlast : [e].filterMap (committed commit) = [⟨e.tid, c⟩] := by simp [committed, hc]
    obtain ⟨hnone, env, hans, hR⟩ := hcommit c hc
    obtain ⟨k, rfl, hi⟩ : ∃ k, q = .op c.op k ∧
        Stands commit A e.tid (Prog.resume k' e.call.ans) (Prog.resume k c.ans) := by
      rcases hstands with himpl | hall
      · obtain ⟨k, hq, hi⟩ := himpl.commits hA hc
        exact ⟨k, hq, Or.inl hi⟩
      · rw [hall e.call] at hc
        cases hc
    have hstep := Machine.StepTo.intro (M := M) hq env
    rw [hnone, ← hans] at hstep
    refine ⟨⟨(M.exec c.op env s.shared).2, s.threads.set e.tid (Prog.resume k c.ans)⟩,
      ?_, ?_, hR, ?_, ?_⟩
    · rw [List.filterMap_append, hlast]
      simpa using h.run.tail hstep
    · rw [List.filterMap_append, hlast]
      intro e' he'
      rcases List.mem_append.mp he' with he' | he'
      · exact h.noFork e' he'
      · obtain rfl := List.mem_singleton.mp he'
        exact hnone
    · simp [htake, h.length]
    · rw [htake]
      intro i q' q₂ hq' hq₂
      exact hother _ hi i q' q₂ hq' hq₂

/-- **The first system refines the second**, when `G` holds of all its events. -/
theorem Run.refines (s₀ : Sys Op Ans σ)
    (hexec : ∀ (e : Event Ans') (env : Env') (x : σ') (y : σ), G e →
      e.call.ans = (M'.exec e.call.op env x).1 → R x y →
      (commit e = none → R (M'.exec e.call.op env x).2 y) ∧
      ∀ c, commit e = some c → M.fork c.op = none ∧ ∃ env', c.ans = (M.exec c.op env' y).1 ∧
        R (M'.exec e.call.op env x).2 (M.exec c.op env' y).2)
    (hA : ∀ e, G e → A e.call.op e.call.ans)
    (hfork : ∀ e p', G e → M'.fork e.call.op = some p' →
      ∃ p, Q p ∧ ∀ i, s₀'.threads.length ≤ i → Stands commit A i p' p)
    (hrun : Run M' s₀' t s') (hG : ∀ e ∈ t, G e) (hR : R s₀'.shared s₀.shared)
    (hlength : s₀.threads.length = s₀'.threads.length)
    (hthreads : ∀ i q' q, s₀'.threads[i]? = some q' → s₀.threads[i]? = some q →
      Stands commit A i q' q) :
    ∃ ps s, (∀ p ∈ ps, Q p) ∧ Refined M commit A R s₀ ps t s' s ∧
      s₀'.threads.length ≤ s'.threads.length := by
  induction hrun with
  | refl =>
    exact ⟨[], s₀, nofun, ⟨by simpa using Run.refl, nofun, hR, hlength, hthreads⟩, le_rfl⟩
  | @tail m m' t e hrun hs ih =>
    obtain ⟨ps, y, hQ, href, hle⟩ := ih fun e he => hG e (List.mem_append_left _ he)
    have hGe := hG e (by simp)
    obtain ⟨k', env, -, hans, hshared, hth⟩ := hs.cases
    obtain ⟨hsilent, hcommit⟩ := hexec e env m.shared y.shared hGe hans href.shared
    rw [← hshared] at hsilent
    obtain ⟨y₁, href₁⟩ := href.step hs (hA e hGe) hsilent fun c hc => by
      obtain ⟨hnone, env', hc', hR'⟩ := hcommit c hc
      exact ⟨hnone, env', hc', hshared ▸ hR'⟩
    have htake : m'.threads.take m.threads.length
        = m.threads.set e.tid (Prog.resume k' e.call.ans) := by
      rw [hth, List.take_left' (by simp)]
    cases hf : M'.fork e.call.op with
    | none =>
      rw [hf, Option.toList_none, List.append_nil] at hth
      rw [htake, ← hth] at href₁
      refine ⟨ps, y₁, hQ, href₁, ?_⟩
      rw [hs.length]
      omega
    | some p' =>
      obtain ⟨p, hp, hstands⟩ := hfork e p' hGe hf
      rw [hf, Option.toList_some] at hth
      rw [htake] at href₁
      have hext := href₁.extend (hstands _ (by simpa using hle))
      rw [← hth] at hext
      refine ⟨ps ++ [p], _, ?_, hext, ?_⟩
      · intro q hq
        rcases List.mem_append.mp hq with hq | hq
        · exact hQ q hq
        · obtain rfl := List.mem_singleton.mp hq
          exact hp
      · rw [hs.length]
        omega

end Systems

end Concurrency
