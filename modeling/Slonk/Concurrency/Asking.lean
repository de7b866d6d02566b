/-
# Operations that are asked for first

What a program runs on may refuse it something that an operation needs, and then the thread is lost.
Here each operation of a program is preceded by a request (`Prog.asking`), made with what the thread has
at that point: `next` keeps count of it, from `γ₀` on.  A machine that is asked (`Machine.asking`) either
grants the request, and nothing else happens, or refuses it: the thread panics, and `refuse` says what
that leaves of the shared state.

Where nothing is refused that does harm, a run of the machine that is asked is a run of the one that is
not, less the requests (`Run.granted`).  A thread that was refused is one that never moves again
(`Asks`).
-/
import Slonk.Concurrency.Threads

namespace Concurrency

variable {Γ Op : Type} {Ans : Op → Type} {σ Env W α : Type}

/-! ## 1. Requests -/

/-- The request for an operation, or the operation. -/
inductive Asked (Γ Op : Type)
  | ask (γ : Γ) (o : Op)
  | call (o : Op)
  deriving DecidableEq

variable (Γ) in
/-- The answers: a request that is granted is answered, and one that is refused is not. -/
@[reducible] def Asked.Reply (Ans : Op → Type) : Asked Γ Op → Type
  | ask _ _ => Unit
  | call o => Ans o

/-- The program, asking for each of its operations. -/
def Prog.asking (next : Γ → Op → Γ) : Γ → Prog Op Ans α → Prog (Asked Γ Op) (Asked.Reply Γ Ans) α
  | _, ret a => ret a
  | _, panic => panic
  | γ, op o k => op (.ask γ o) fun _ => op (.call o) fun a => asking next (next γ o) (k a)

/-- The machine that is asked. -/
def Machine.asking (M : Machine Op Ans σ Env) (next : Γ → Op → Γ) (γ₀ : Γ) (env : W → Env)
    (refuse : Γ → Op → W → σ → Option σ) : Machine (Asked Γ Op) (Asked.Reply Γ Ans) σ W where
  exec
    | .ask γ o, w, s =>
      match refuse γ o w s with
      | some s' => (none, s')
      | none => (some (), s)
    | .call o, w, s => M.exec o (env w) s
  fork
    | .ask _ _ => none
    | .call o => (M.fork o).map (Prog.asking next γ₀)

/-- The system whose programs ask. -/
def Sys.asking (next : Γ → Op → Γ) (γ₀ : Γ) (s : Sys Op Ans σ) :
    Sys (Asked Γ Op) (Asked.Reply Γ Ans) σ :=
  ⟨s.shared, s.threads.map (Prog.asking next γ₀)⟩

/-- The operation an event has performed, if it is not a request. -/
def Event.called : Event (Asked.Reply Γ Ans) → Option (Event Ans)
  | ⟨tid, ⟨.call o, x⟩⟩ => some ⟨tid, ⟨o, x⟩⟩
  | _ => none

/-- What is performed, less the requests. -/
def called (t : List (Event (Asked.Reply Γ Ans))) : List (Event Ans) := t.filterMap Event.called

theorem called_append (t t' : List (Event (Asked.Reply Γ Ans))) :
    called (t ++ t') = called t ++ called t' := List.filterMap_append

theorem mem_called {t : List (Event (Asked.Reply Γ Ans))} {tid : Nat} {o : Op}
    {x : Option (Ans o)} : (⟨tid, ⟨o, x⟩⟩ : Event Ans) ∈ called t ↔ ⟨tid, ⟨.call o, x⟩⟩ ∈ t := by
  simp only [called, List.mem_filterMap]
  constructor
  · rintro ⟨⟨tid', ⟨_ | o', x'⟩⟩, he, h⟩
    · cases h
    · cases h
      exact he
  · exact fun h => ⟨_, h, rfl⟩

/-! ## 2. What stands for what -/

/-- What has become of a thread that asks: it is about to ask, or it has been granted its operation, or
it was refused one that it `dies` of. -/
inductive Asks (next : Γ → Op → Γ) (dies : Op → Prop) :
    Prog Op Ans α → Prog (Asked Γ Op) (Asked.Reply Γ Ans) α → Prop
  | before (γ : Γ) (p : Prog Op Ans α) : Asks next dies p (p.asking next γ)
  | granted (γ : Γ) (o : Op) (k : Ans o → Prog Op Ans α) :
    Asks next dies (.op o k) (.op (.call o) fun a => (k a).asking next γ)
  | refused (o : Op) (k : Ans o → Prog Op Ans α) (hdies : dies o) : Asks next dies (.op o k) .panic

/-- The same of all threads, over the same shared state. -/
structure AsksFor (next : Γ → Op → Γ) (dies : Op → Prop) (s : Sys Op Ans σ)
    (a : Sys (Asked Γ Op) (Asked.Reply Γ Ans) σ) : Prop where
  shared : a.shared = s.shared
  length : a.threads.length = s.threads.length
  threads : ∀ (i : Nat) (q : Prog (Asked Γ Op) (Asked.Reply Γ Ans) Unit), a.threads[i]? = some q →
    ∃ p, s.threads[i]? = some p ∧ Asks next dies p q

variable {M : Machine Op Ans σ Env} {next : Γ → Op → Γ} {γ₀ : Γ} {env : W → Env}
  {refuse : Γ → Op → W → σ → Option σ} {harms dies : Op → Prop} {s : Sys Op Ans σ}
  {a a' : Sys (Asked Γ Op) (Asked.Reply Γ Ans) σ} {e : Event (Asked.Reply Γ Ans)}
  {t : List (Event (Asked.Reply Γ Ans))}

theorem asksFor_asking (s : Sys Op Ans σ) : AsksFor next dies s (s.asking next γ₀) where
  shared := rfl
  length := List.length_map _
  threads i q hq := by
    rw [Sys.asking, List.getElem?_map, Option.map_eq_some_iff] at hq
    obtain ⟨p, hp, rfl⟩ := hq
    exact ⟨p, hp, .before γ₀ p⟩

/-! ## 3. Runs -/

/-- What a thread is that is about to ask. -/
theorem Asks.of_ask {p : Prog Op Ans α} {γ : Γ} {o : Op}
    {k : Unit → Prog (Asked Γ Op) (Asked.Reply Γ Ans) α} (h : Asks next dies p (.op (.ask γ o) k)) :
    ∃ k', p = .op o k' ∧ ∀ x, k x = .op (.call o) fun a => (k' a).asking next (next γ o) := by
  generalize hq : (.op (.ask γ o) k : Prog (Asked Γ Op) (Asked.Reply Γ Ans) α) = q at h
  cases h with
  | before γ p =>
    cases p with
    | op o' k' =>
      cases hq
      exact ⟨k', rfl, fun _ => rfl⟩
    | _ => cases hq
  | granted => cases hq
  | refused => cases hq

/-- What a thread is that has been granted its operation. -/
theorem Asks.of_call {p : Prog Op Ans α} {o : Op}
    {k : Ans o → Prog (Asked Γ Op) (Asked.Reply Γ Ans) α} (h : Asks next dies p (.op (.call o) k)) :
    ∃ γ k', p = .op o k' ∧ ∀ x, k x = (k' x).asking next γ := by
  generalize hq : (.op (.call o) k : Prog (Asked Γ Op) (Asked.Reply Γ Ans) α) = q at h
  cases h with
  | before γ p => cases p <;> cases hq
  | granted γ o' k' =>
    cases hq
    exact ⟨γ, k', rfl, fun _ => rfl⟩
  | refused => cases hq

/-- What a thread is that is over: it is over with, or it was refused. -/
theorem Asks.of_finished {p : Prog Op Ans α} {q : Prog (Asked Γ Op) (Asked.Reply Γ Ans) α}
    (h : Asks next dies p q) (hq : q.Finished) : p.Finished ∨ ∃ o k, p = .op o k ∧ dies o := by
  cases h with
  | before γ p =>
    cases p with
    | op o k => exact hq.elim
    | _ => exact Or.inl trivial
  | granted => exact hq.elim
  | refused o k hdies => exact Or.inr ⟨o, k, rfl, hdies⟩

/-- What a thread is that has panicked. -/
theorem Asks.of_panic {p : Prog Op Ans α}
    (h : Asks next dies p (.panic : Prog (Asked Γ Op) (Asked.Reply Γ Ans) α)) :
    p = .panic ∨ ∃ o k, p = .op o k ∧ dies o := by
  generalize hq : (.panic : Prog (Asked Γ Op) (Asked.Reply Γ Ans) α) = q at h
  cases h with
  | before γ p =>
    cases p with
    | panic => exact Or.inl rfl
    | _ => cases hq
  | granted => cases hq
  | refused o k hdies => exact Or.inr ⟨o, k, rfl, hdies⟩

/-- **A request** that does no harm changes nothing. -/
theorem AsksFor.ask (h : AsksFor next dies s a)
    (hrefuse : ∀ γ o w c c', refuse γ o w c = some c' → ¬ harms o → c' = c ∧ dies o)
    (hstep : (M.asking next γ₀ env refuse).StepTo a e a') {γ : Γ} {o : Op}
    (hop : e.call.op = .ask γ o) (hgranted : e.call.ans = none → ¬ harms o) :
    AsksFor next dies s a' := by
  obtain ⟨tid, ⟨_, x⟩⟩ := e
  obtain rfl : _ = Asked.ask γ o := hop
  obtain ⟨w, hans, hshared⟩ := hstep.exec
  have hanswer : (x = some () ∧ a'.shared = a.shared) ∨ (x = none ∧ a'.shared = a.shared ∧ dies o) := by
    simp only [Machine.asking] at hans hshared
    split at hans
    · rename_i c' hc'
      rw [hc'] at hshared
      obtain ⟨hkept, hdies⟩ := hrefuse γ o w _ _ hc' (hgranted hans)
      exact Or.inr ⟨hans, hshared.trans hkept, hdies⟩
    · rename_i hc'
      rw [hc'] at hshared
      exact Or.inl ⟨hans, hshared⟩
  refine ⟨?_, ?_, fun i q hq => ?_⟩
  · rcases hanswer with ⟨-, hkept⟩ | ⟨-, hkept, -⟩
    · exact hkept.trans h.shared
    · exact hkept.trans h.shared
  · rw [hstep.length]
    exact h.length
  · rcases hstep.thread_cases hq with ⟨-, hq⟩ | ⟨rfl, k, hk, rfl⟩ | ⟨-, hfork⟩
    · exact h.threads i q hq
    · obtain ⟨p, hp, hstands⟩ := h.threads _ _ hk
      obtain ⟨k', rfl, hk'⟩ := hstands.of_ask
      refine ⟨_, hp, ?_⟩
      rcases hanswer with ⟨rfl, -⟩ | ⟨rfl, -, hdies⟩
      · show Asks next dies (.op o k') (k ())
        rw [hk']
        exact .granted _ o k'
      · exact .refused o k' hdies
    · cases hfork

/-- **An operation** that was granted is performed. -/
theorem AsksFor.call (h : AsksFor next dies s a)
    (hstep : (M.asking next γ₀ env refuse).StepTo a e a') {o : Op} {x : Option (Ans o)}
    (hcall : e.call = ⟨.call o, x⟩) :
    ∃ s', M.StepTo s ⟨e.tid, ⟨o, x⟩⟩ s' ∧ AsksFor next dies s' a' := by
  obtain ⟨tid, call⟩ := e
  obtain rfl : call = ⟨.call o, x⟩ := hcall
  obtain ⟨k, hk, -⟩ := hstep.self
  obtain ⟨p, hp, hstands⟩ := h.threads _ _ hk
  obtain ⟨γ, k', rfl, hk'⟩ := hstands.of_call
  obtain ⟨w, hans, hshared⟩ := hstep.exec
  have hans' : x = (M.exec o (env w) s.shared).1 := by
    rw [← h.shared]
    exact hans
  have hstep' := Machine.StepTo.intro (M := M) hp (env w)
  rw [← hans'] at hstep'
  refine ⟨_, hstep', ?_, ?_, fun i q hq => ?_⟩
  · rw [hshared]
    exact congrArg (fun c => (M.exec o (env w) c).2) h.shared
  · rw [hstep.length, hstep'.length, h.length]
    cases hfork : M.fork o <;> simp [Machine.asking, hfork]
  · rcases hstep.thread_cases hq with ⟨hi, hq⟩ | ⟨rfl, k₁, hk₁, rfl⟩ | ⟨rfl, hfork⟩
    · obtain ⟨p, hp, hstands⟩ := h.threads i q hq
      refine ⟨p, ?_, hstands⟩
      rw [hstep'.other hi (List.getElem?_eq_some_iff.mp hp).1, hp]
    · obtain ⟨k₂, hk₂, hself⟩ := hstep'.self
      cases Option.some.inj (hk.symm.trans hk₁)
      cases Option.some.inj (hp.symm.trans hk₂)
      refine ⟨_, hself, ?_⟩
      cases x with
      | none => exact .before γ .panic
      | some b =>
        show Asks next dies (k' b) (k b)
        rw [hk']
        exact .before γ (k' b)
    · obtain ⟨p, hp, rfl⟩ := Option.map_eq_some_iff.mp hfork
      refine ⟨p, ?_, .before γ₀ p⟩
      rw [h.length, List.getElem?_append_right (by simp), List.length_set, Nat.sub_self]
      change M.fork o = some p at hp
      simp [hp]

/-- **Runs.**  Where nothing that does harm is refused, a run of the machine that is asked is a run of the
other, less the requests. -/
theorem Run.granted (harms : Op → Prop) (h : AsksFor next dies s a)
    (hrefuse : ∀ γ o w c c', refuse γ o w c = some c' → ¬ harms o → c' = c ∧ dies o)
    (hrun : Run (M.asking next γ₀ env refuse) a t a')
    (hgranted : ∀ e ∈ t, ∀ γ o, e.call = ⟨.ask γ o, none⟩ → ¬ harms o) :
    ∃ s', Run M s (called t) s' ∧ AsksFor next dies s' a' := by
  induction hrun with
  | refl => exact ⟨s, .refl, h⟩
  | @tail a₁ a₂ t e _ hstep ih =>
    obtain ⟨s₁, hrun₁, h₁⟩ := ih fun e' he' => hgranted e' (List.mem_append_left _ he')
    obtain ⟨tid, ⟨op, x⟩⟩ := e
    rw [called_append]
    cases op with
    | ask γ o =>
      refine ⟨s₁, (List.append_nil (called t)).symm ▸ hrun₁, h₁.ask hrefuse hstep rfl fun hnone => ?_⟩
      obtain rfl : x = none := hnone
      exact hgranted ⟨tid, ⟨.ask γ o, none⟩⟩ (by simp) γ o rfl
    | call o =>
      obtain ⟨s₂, hstep₂, h₂⟩ := h₁.call hstep rfl
      exact ⟨s₂, hrun₁.tail hstep₂, h₂⟩

end Concurrency
