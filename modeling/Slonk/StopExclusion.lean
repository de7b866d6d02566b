/-
# Does one stop sequence exclude another?

`emergency_stop` says of its first line "if it's already in EStopping, don't interfere", and
`sensor_listen` spawns an invocation for every sample out of range, relying on it.  But the
guard may be moved from `EStopping` to `EStopping`, so a second invocation is accepted, and runs
the same sequence a second time beside the first; whichever is done first takes the guard back to
`Standby` under the other.

A late entry does no harm in two cases only: the shutoff sequence is empty, or the first write in
it is blocked.  Otherwise it is `Harmful`.
-/
import Slonk.Continuations

namespace Slonk

open Concurrency

variable {config : Configuration} {n : Nat} {shared : Shared} {m m' s s₀ : System}
  {e : Event Op.Ans} {i j k : Nat} {t : Trace} {rest rest' : List Action}

/-- `n` invocations of `emergency_stop`. -/
def stopsOnly (n : Nat) : List Procedure := List.replicate n .emergencyStop

/-! ## 1. The property -/

/-- Invocation `j` is between its successful `move_to(EStopping)` and its return. -/
def InStop (config : Configuration) (s : System) (j : Nat) : Prop :=
  ∃ rest, AtStage config stop s j (.stopping rest)

/-- With the step `e` an invocation makes its first call, while another one, `j`, is in its
sequence. -/
structure LateStart (config : Configuration) (t : Trace) (m : System) (e : Event Op.Ans)
    (j : Nat) : Prop where
  first : history e.tid t = []
  other : j ≠ e.tid
  inStop : InStop config m j

/-- **At most one stop sequence runs at a time**: a late starter performs no write, and the guard
does not leave `EStopping` while an invocation has actions left. -/
structure OneStopAtATime (config : Configuration) (s₀ : System) (t : Trace) (s : System) :
    Prop where
  late : ∀ t₁ m e m' t₂ j, Moment (machine config) s₀ t s t₁ m e m' t₂ →
    LateStart config t₁ m e j → ¬ WritesIn t₂ e.tid
  stays : ∀ t₁ m e m' t₂ j action rest, Moment (machine config) s₀ t s t₁ m e m' t₂ →
    m.shared.state.state = .eStopping → m'.shared.state.state ≠ .eStopping →
    ¬ AtStage config stop m j (.stopping (action :: rest))

/-- Another entry into the shutoff sequence can do harm: the driver lines allow its first write,
or it has none and takes time. -/
def Harmful (config : Configuration) (lines : Locked (List Bool)) : Prop :=
  Writable lines config.estopSequence ∨
    (actuations config.estopSequence = [] ∧ config.estopSequence ≠ [])

/-- No late start of the run can do harm. -/
def LateStartsHarmless (config : Configuration) (s₀ : System) (t : Trace) (s : System) : Prop :=
  ∀ t₁ m e m' t₂ j, Moment (machine config) s₀ t s t₁ m e m' t₂ → LateStart config t₁ m e j →
    ¬ Harmful config m.shared.driverLines

/-! ## 2. One invocation -/

theorem stopsOnly_kind {kind : Procedure} (h : (stopsOnly n)[i]? = some kind) :
    kind = .emergencyStop := by
  obtain ⟨hlt, h⟩ := List.getElem?_eq_some_iff.mp h
  rw [← h]
  exact List.getElem_replicate hlt

/-- Two invocations in their sequences, or one described twice. -/
theorem AtStage.stopping_unique (h : AtStage config stop s j (.stopping rest))
    (h' : AtStage config stop s j (.stopping rest')) : rest = rest' :=
  Stage.stopping.inj (h.unique h' rfl)

/-- **Where an invocation in its sequence was a step ago**: there already, at the entry, or one
action earlier. -/
theorem stopping_before (hrun : Run (machine config) (invocations config (stopsOnly n) shared) t m)
    (hs : (machine config).StepTo m e m') (h : AtStage config stop m' j (.stopping rest)) :
    (j ≠ e.tid ∧ AtStage config stop m j (.stopping rest)) ∨
      (j = e.tid ∧ history e.tid t = [] ∧ rest = config.estopSequence ∧
        e.call.op = .moveTo .eStopping) ∨
      (j = e.tid ∧ ∃ action, AtStage config stop m j (.stopping (action :: rest)) ∧
        ∃ (o : Op) (env : Env) (b : o.Ans), o = action.op ∧
          exec o env m.shared = (some b, m'.shared) ∧ Op.succeeds o b) := by
  by_cases hj : j = e.tid
  · subst hj
    obtain ⟨kind, hk, hcases⟩ := invocations_step hrun hs
    obtain rfl := stopsOnly_kind hk
    rcases hcases with ⟨hnil, hop, hentry⟩ | ⟨stage, hkind, hat⟩
    · rcases hentry with ⟨-, hat⟩ | ⟨-, q, hq, hf⟩
      · exact Or.inr (Or.inl ⟨rfl, hnil, h.stopping_unique hat, hop⟩)
      · exact absurd hf (h.not_finished hq)
    · obtain ⟨a, env, -, hexec, hnext⟩ := hat.step_stop hs rfl
      rcases hnext with ⟨b, stage', rfl, hb, hafter, hat'⟩ | ⟨q, hq, hf⟩
      · obtain rfl := h.unique hat' ((Stage.procedure_after hafter).trans hkind).symm
        cases stage with
        | stopping rest₀ =>
          match rest₀ with
          | [] => cases hafter
          | action :: rest₀ =>
            obtain rfl : rest₀ = rest := Stage.stopping.inj (Option.some.inj hafter)
            exact Or.inr (Or.inr ⟨rfl, action, hat, _, env, b, rfl, hexec, hb⟩)
        | _ => cases hkind
      · exact absurd hf (h.not_finished hq)
  · refine Or.inl ⟨hj, ?_⟩
    have hlt : j < m.threads.length := by
      rw [← (((noFork_invocations config _ shared).run hrun).1.run (Run.single hs)).2]
      exact (List.getElem?_eq_some_iff.mp h).1
    rw [AtStage, ← hs.other hj hlt]
    exact h

/-- A transition leaves the driver lines alone. -/
theorem lines_of_moveTo (hs : (machine config).StepTo m e m') {newState : State}
    (ho : e.call.op = .moveTo newState) : m'.shared.driverLines = m.shared.driverLines := by
  obtain ⟨env, hexec⟩ := StepTo_exec hs
  have := exec_driverLines (o := e.call.op) (fun d v h => by rw [ho] at h; cases h) env m.shared
  rwa [hexec] at this

/-- Only a write that panics poisons the lock. -/
theorem poisons_of_exec {o : Op} {env : Env} {shared shared' : Shared} {a : Option o.Ans}
    (h : exec o env shared = (a, shared')) (hp : shared.driverLines.poisoned = false)
    (hp' : shared'.driverLines.poisoned = true) :
    a = none ∧ ∃ driverId value, o = .write driverId value := by
  by_cases hw : ∃ driverId value, o = .write driverId value
  · obtain ⟨driverId, value, rfl⟩ := hw
    refine ⟨?_, driverId, value, rfl⟩
    by_cases hlt : driverId.toNat < shared.driverLines.val.length
    · rw [exec_write_of_lt hp hlt] at h
      split at h <;> obtain ⟨-, rfl⟩ := Prod.mk.inj h <;> rw [hp] at hp' <;> cases hp'
    · rw [exec_write_of_ge hp (Nat.not_lt.mp hlt)] at h
      exact (Prod.mk.inj h).1.symm
  · have := exec_driverLines (fun d v h => hw ⟨d, v, h⟩) env shared
    rw [h] at this
    rw [this, hp] at hp'
    cases hp'

/-- Every write of a run reached a line that is there. -/
theorem wrote_lt {driverId : UInt8} {value : Bool} (hrun : Run (machine config) s₀ t s)
    (he : e ∈ t) (hw : wrote e.call = some (driverId, value)) :
    driverId.toNat < s.shared.driverLines.val.length := by
  induction hrun with
  | refl => cases he
  | @tail m m' t e' _ hs ih =>
    rw [(lines_step hs).1]
    rcases List.mem_append.mp he with he | he
    · exact ih he
    · obtain rfl := List.mem_singleton.mp he
      obtain ⟨env, hexec⟩ := StepTo_exec hs
      exact (wrote_of_exec hexec hw).2.2

/-! ## 3. The invariant -/

/-- Two invocations are in their sequences at once only if both are done, or both are blocked. -/
structure Settled (config : Configuration) (s : System) : Prop where
  suffix : ∀ j rest, AtStage config stop s j (.stopping rest) → rest <:+ config.estopSequence
  poisoned : ∀ j rest, AtStage config stop s j (.stopping rest) →
    s.shared.driverLines.poisoned = true →
    actuations rest ≠ [] ∨ actuations config.estopSequence = []
  pairs : ∀ j k rest rest', j ≠ k → AtStage config stop s j (.stopping rest) →
    AtStage config stop s k (.stopping rest') →
    (rest = [] ∧ rest' = []) ∨
      (Blocked s.shared.driverLines rest ∧ Blocked s.shared.driverLines rest')

/-- An invocation in its sequence is blocked as soon as a fresh one would be. -/
theorem Settled.blocked (h : Settled config m)
    (hrun : Run (machine config) (invocations config (stopsOnly n) shared) t m)
    (hat : AtStage config stop m j (.stopping rest))
    (hb : Blocked m.shared.driverLines config.estopSequence) :
    Blocked m.shared.driverLines rest := by
  have hk : (stopsOnly n)[j]? = some (Stage.stopping rest).procedure := by
    obtain ⟨kind, hk⟩ := invocations_kind hrun hat
    rw [hk, stopsOnly_kind hk]
    rfl
  obtain ⟨-, hw⟩ := invocations_atStage hrun hk hat
  obtain ⟨d, v, hh, hblocked⟩ := hb
  cases hhist : (history j t).filterMap wrote with
  | nil =>
    rw [hhist, List.nil_append] at hw
    exact ⟨d, v, by rw [show actuations rest = actuations config.estopSequence from hw, hh],
      hblocked⟩
  | cons dv ws =>
    -- it has written already, so the first line is there and it is the lock that blocks
    have hdv : dv = (d, v) := by
      have hcons : dv :: (ws ++ actuations rest) = actuations config.estopSequence := by
        rw [← List.cons_append, ← hhist]; exact hw
      rw [← hcons] at hh
      exact Option.some.inj hh
    obtain ⟨c, hc, hcw⟩ := List.mem_filterMap.mp (hhist ▸ List.mem_cons_self)
    obtain ⟨e, he, -, rfl⟩ := mem_history.mp hc
    have hlt := wrote_lt hrun he (hcw.trans (congrArg some hdv))
    have hp : m.shared.driverLines.poisoned = true := by
      rcases hblocked with hp | hge
      · exact hp
      · omega
    have hne : actuations rest ≠ [] := by
      rcases h.poisoned j rest hat hp with hne | hnil
      · exact hne
      · rw [hnil] at hh; cases hh
    obtain ⟨dv', ws', hrest⟩ := List.exists_cons_of_ne_nil hne
    exact ⟨dv'.1, dv'.2, by rw [hrest]; rfl, Or.inl hp⟩

/-- A harmless entry is one of an empty sequence, or of a blocked one. -/
theorem not_harmful {lines : Locked (List Bool)} (h : ¬ Harmful config lines) :
    config.estopSequence = [] ∨ Blocked lines config.estopSequence := by
  rw [Harmful, not_or, not_and, not_not] at h
  rcases blocked_of_not_writable h.1 with hnil | hblocked
  · exact Or.inl (h.2 hnil)
  · exact Or.inr hblocked

/-- The pair of the invocation that moves and another one. -/
theorem Settled.pair_self (h : Settled config m)
    (hrun : Run (machine config) (invocations config (stopsOnly n) shared) t m)
    (hs : (machine config).StepTo m e m') (hj : j ≠ e.tid)
    (hcond : LateStart config t m e j → ¬ Harmful config m.shared.driverLines)
    (hat : AtStage config stop m' e.tid (.stopping rest))
    (hat' : AtStage config stop m' j (.stopping rest')) :
    (rest = [] ∧ rest' = []) ∨
      (Blocked m'.shared.driverLines rest ∧ Blocked m'.shared.driverLines rest') := by
  obtain ⟨-, hat₀⟩ : j ≠ e.tid ∧ AtStage config stop m j (.stopping rest') := by
    rcases stopping_before hrun hs hat' with h | ⟨h, -⟩ | ⟨h, -⟩
    · exact h
    · exact absurd h hj
    · exact absurd h hj
  rcases stopping_before hrun hs hat with ⟨hne, -⟩ | ⟨-, hnil, rfl, hop⟩ | ⟨-, action, hat₁, hact⟩
  · exact absurd rfl hne
  · rcases not_harmful (hcond ⟨hnil, hj, rest', hat₀⟩) with hempty | hblocked
    · left
      have := h.suffix j rest' hat₀
      rw [hempty] at this ⊢
      exact ⟨rfl, List.suffix_nil.mp this⟩
    · right
      exact ⟨hblocked.step hs, (h.blocked hrun hat₀ hblocked).step hs⟩
  · obtain ⟨o, env, b, ho, hexec, hb⟩ := hact
    rcases h.pairs e.tid j _ _ hj.symm hat₁ hat₀ with ⟨hcons, -⟩ | ⟨hblocked, hblocked'⟩
    · cases hcons
    · exact Or.inr ⟨(hblocked.tail ho hexec hb).step hs, hblocked'.step hs⟩

/-- **The invariant step.** -/
theorem Settled.step (h : Settled config m)
    (hrun : Run (machine config) (invocations config (stopsOnly n) shared) t m)
    (hs : (machine config).StepTo m e m')
    (hcond : ∀ j, LateStart config t m e j → ¬ Harmful config m.shared.driverLines) :
    Settled config m' := by
  constructor
  case suffix =>
    intro j rest hat
    rcases stopping_before hrun hs hat with ⟨-, hat⟩ | ⟨-, -, rfl, -⟩ | ⟨-, action, hat, -⟩
    · exact h.suffix j rest hat
    · exact List.suffix_rfl
    · exact (List.suffix_cons action rest).trans (h.suffix j _ hat)
  case poisoned =>
    intro j rest hat hp
    rcases stopping_before hrun hs hat with ⟨hj, hat⟩ | ⟨-, -, rfl, -⟩ | ⟨-, action, hat, hact⟩
    · cases hp₀ : m.shared.driverLines.poisoned with
      | true => exact h.poisoned j rest hat hp₀
      | false =>
        -- the lock was poisoned by this step, so its thread was in the sequence too
        obtain ⟨env, hexec⟩ := StepTo_exec hs
        obtain ⟨-, d, v, hop⟩ := poisons_of_exec hexec hp₀ hp
        obtain ⟨kind, hk, hcases⟩ := invocations_step hrun hs
        obtain rfl := stopsOnly_kind hk
        rcases hcases with ⟨-, hmove, -⟩ | ⟨stage, hkind, hat₁⟩
        · rw [hop] at hmove; cases hmove
        · rw [hat₁.step_op hs rfl] at hop
          match stage, hop with
          | .stopping (action :: rest₁), _ =>
            rcases h.pairs j e.tid _ _ hj hat hat₁ with ⟨-, hcons⟩ | ⟨hblocked, -⟩
            · cases hcons
            · exact Or.inl hblocked.ne_nil
    · by_cases hnil : actuations config.estopSequence = []
      · exact Or.inr hnil
      · exact Or.inl hnil
    · obtain ⟨o, env, b, ho, hexec, hb⟩ := hact
      have hp₀ : m.shared.driverLines.poisoned = true := by
        by_contra hp₀
        obtain ⟨hnone, -⟩ := poisons_of_exec hexec (Bool.not_eq_true _ ▸ hp₀) hp
        cases hnone
      cases action with
      | sleep duration => exact h.poisoned j (.sleep duration :: rest) hat hp₀
      | actuate d v =>
        obtain ⟨hp₁, -⟩ := performable_of_succeeds ho hexec hb d v List.mem_cons_self
        rw [hp₀] at hp₁
        cases hp₁
  case pairs =>
    intro j k rest rest' hjk hat hat'
    by_cases hj : j = e.tid
    · subst hj
      exact h.pair_self hrun hs hjk.symm (hcond k) hat hat'
    · by_cases hk : k = e.tid
      · subst hk
        rcases h.pair_self hrun hs hj (hcond j) hat' hat with ⟨h₁, h₂⟩ | ⟨h₁, h₂⟩
        · exact Or.inl ⟨h₂, h₁⟩
        · exact Or.inr ⟨h₂, h₁⟩
      · have hothers : ∀ {i rest}, i ≠ e.tid → AtStage config stop m' i (.stopping rest) →
            AtStage config stop m i (.stopping rest) := by
          intro i rest hi hat
          rcases stopping_before hrun hs hat with ⟨-, h⟩ | ⟨h, -⟩ | ⟨h, -⟩
          · exact h
          · exact absurd h hi
          · exact absurd h hi
        refine (h.pairs j k rest rest' hjk (hothers hj hat) (hothers hk hat')).imp_right ?_
        exact fun ⟨h₁, h₂⟩ => ⟨h₁.step hs, h₂.step hs⟩

/-- Nobody is in its sequence before the first step. -/
theorem Settled.init : Settled config (invocations config (stopsOnly n) shared) := by
  have hnone : ∀ j rest,
      ¬ AtStage config stop (invocations config (stopsOnly n) shared) j (.stopping rest) := by
    intro j rest hat
    obtain ⟨stage, -, -, hm, -⟩ := invocations_running Run.refl hat
    cases stage <;> cases hm
  exact ⟨fun j rest h => absurd h (hnone j rest), fun j rest h => absurd h (hnone j rest),
    fun j k rest rest' _ h => absurd h (hnone j rest)⟩

/-! ## 4. Runs whose late starts are harmless -/

/-- A late starter whose entry is harmless performs no write. -/
theorem not_writesIn_of_harmless {t₁ t₂ : Trace}
    (hd : Moment (machine config) (invocations config (stopsOnly n) shared) t s t₁ m e m' t₂)
    (hlate : LateStart config t₁ m e j) (hh : ¬ Harmful config m.shared.driverLines) :
    ¬ WritesIn t₂ e.tid := by
  obtain ⟨kind, hk, hcases⟩ := invocations_step hd.before hd.step
  obtain rfl := stopsOnly_kind hk
  rcases hcases with ⟨-, hop, hentry⟩ | ⟨stage, hkind, hat⟩
  · rcases hentry with ⟨-, hat⟩ | ⟨-, q, hq, hf⟩
    · have hw : ¬ Writable m'.shared.driverLines config.estopSequence := by
        rw [lines_of_moveTo hd.step hop]
        exact fun hw => hh (Or.inl hw)
      have hat' : AtStage config stop m' e.tid
          (Procedure.emergencyStop.performing config.estopSequence) := hat
      exact ((hat'.silent hw).run hd.after).2
    · exact ((silent_of_finished hq hf).run hd.after).2
  · -- an invocation at a stage has made a call before
    have hmoves := (invocations_atStage hd.before (hkind.symm ▸ hk) hat).1
    rw [hlate.first] at hmoves
    cases stage <;> cases hmoves

/-- Where late starts are harmless, the guard stays in `EStopping` while there is something left
to do there. -/
theorem stays_of_settled (h : Settled config m)
    (hrun : Run (machine config) (invocations config (stopsOnly n) shared) t m)
    (hs : (machine config).StepTo m e m') (hstate : m.shared.state.state = .eStopping)
    (hleft : m'.shared.state.state ≠ .eStopping) (action : Action) (rest : List Action) :
    ¬ AtStage config stop m j (.stopping (action :: rest)) := by
  intro hat
  obtain ⟨env, hexec⟩ := StepTo_exec hs
  obtain ⟨newState, hm⟩ : ∃ newState, moved e.call = some newState := by
    refine Option.ne_none_iff_exists'.mp fun hm => hleft ?_
    rw [state_of_not_moved hexec hm, hstate]
  obtain ⟨hop, -, -, hstate'⟩ := moved_of_exec hexec hm
  obtain ⟨kind, hk, hcases⟩ := invocations_step hrun hs
  obtain rfl := stopsOnly_kind hk
  rcases hcases with ⟨-, hentry, -⟩ | ⟨stage, hkind, hat'⟩
  · obtain rfl : newState = .eStopping := Op.moveTo.inj (hop.symm.trans hentry)
    exact hleft (by rw [hstate'])
  · rw [hat'.step_op hs rfl] at hop
    match stage, hkind, hop with
    | .stopping [], _, _ =>
      by_cases hj : j = e.tid
      · subst hj
        cases hat.stopping_unique hat'
      · rcases h.pairs j e.tid _ _ hj hat hat' with ⟨hcons, -⟩ | ⟨-, hblocked⟩
        · cases hcons
        · exact hblocked.ne_nil rfl
    | .stopping (a :: _), _, hop => exact a.op_ne_moveTo _ hop

theorem oneStopAtATime_of_harmless
    (hcond : LateStartsHarmless config (invocations config (stopsOnly n) shared) t s) :
    OneStopAtATime config (invocations config (stopsOnly n) shared) t s := by
  constructor
  case late =>
    intro t₁ m e m' t₂ j hd hlate
    exact not_writesIn_of_harmless hd hlate (hcond t₁ m e m' t₂ j hd hlate)
  case stays =>
    intro t₁ m e m' t₂ j action rest hd hstate hleft
    have h : Settled config m := hd.along (I := fun _ s => Settled config s) Settled.init
      fun a p e p' b hp h => h.step hp.before hp.step fun j => hcond a p e p' b j hp
    exact stays_of_settled h hd.before hd.step hstate hleft action rest

/-! ## 5. Runs with a harmful late start -/

/-- An invocation that has made no call is at its beginning. -/
theorem fresh_of_history {kinds : List Procedure} {kind : Procedure}
    (hrun : Run (machine config) (invocations config kinds shared) t m)
    (hk : kinds[i]? = some kind) (hnil : history i t = []) :
    m.threads[i]? = some (kind.code config).discard := by
  have hp : (invocations config kinds shared).threads[i]? = some (kind.code config).discard := by
    simp [invocations, hk]
  obtain ⟨q, hq, hsteps⟩ := hrun.steps hp
  rw [hnil] at hsteps
  rw [hq, hsteps.nil_inv]

/-- **Where there is a stop another is let in**: one that runs its sequence has moved the guard, so the
guard is not poisoned and not in `Quit`. -/
theorem guard_of_inStop
    (hrun : Run (machine config) (invocations config (stopsOnly n) shared) t m)
    (hin : InStop config m j) :
    m.shared.state.poisoned = false ∧ validTransition m.shared.state.state .eStopping = true := by
  obtain ⟨rest, hat⟩ := hin
  obtain ⟨stage, -, -, hmoves, -⟩ := invocations_running hrun hat
  obtain ⟨X, hX⟩ : ∃ X, X ∈ (history j t).filterMap moved := by
    rw [hmoves]
    cases stage <;> exact ⟨_, List.mem_cons_self⟩
  obtain ⟨c, hc, hcX⟩ := List.mem_filterMap.mp hX
  obtain ⟨e₀, he₀, -, rfl⟩ := mem_history.mp hc
  have hm₀ : moved e₀.call ≠ none := by
    rw [hcX]
    exact Option.some_ne_none X
  refine ⟨guard_unpoisoned hrun he₀ hm₀, ?_⟩
  rw [validTransition_eStopping]
  intro hq
  obtain ⟨e', he', hop⟩ := guard_installed hrun he₀ hm₀
  exact invocations_ne_quit hrun he' (hq ▸ hop)

/-- **After a harmful late start the two sequences can get in each other's way**: either the late
starter writes, or the other one is done first and takes the guard from under it. -/
theorem not_oneStopAtATime_of_harmful
    (hrun : Run (machine config) (invocations config (stopsOnly n) shared) t m) (hi : i < n)
    (hnil : history i t = []) (hj : j ≠ i) (hin : InStop config m j)
    (hh : Harmful config m.shared.driverLines) :
    ∃ t' s, Run (machine config) m t' s ∧
      ¬ OneStopAtATime config (invocations config (stopsOnly n) shared) (t ++ t') s := by
  obtain ⟨hsound, hv⟩ := guard_of_inStop hrun hin
  obtain ⟨rest, hat⟩ := hin
  have hk : (stopsOnly n)[i]? = some .emergencyStop := by simp [stopsOnly, hi]
  have hfresh := fresh_of_history hrun hk hnil
  obtain ⟨m₁, hs, hshared, hat₁, hothers⟩ :=
    Procedure.enter hfresh hsound hv
  have hlate : LateStart config t m ⟨i, ⟨.moveTo .eStopping, some (.ok ())⟩⟩ j :=
    ⟨hnil, hj, rest, hat⟩
  rcases hh with hw | ⟨hempty, hne⟩
  · -- the late starter writes
    have hw₁ : Writable m₁.shared.driverLines config.estopSequence := by rw [hshared]; exact hw
    have hat' : AtStage config stop m₁ i
        (Procedure.emergencyStop.performing config.estopSequence) := hat₁
    obtain ⟨t', s, hrun', hwrites⟩ := hat'.reach_write hw₁
    refine ⟨_, s, Run.head hs hrun', fun h => ?_⟩
    exact h.late t m _ m₁ t' j ⟨rfl, hrun, hs, hrun'⟩ hlate hwrites
  · -- `j` has only waits left, and takes the guard to `Standby`
    obtain ⟨action, rest₁, hcons⟩ := List.exists_cons_of_ne_nil hne
    have hat₂ : AtStage config stop m₁ j (.stopping rest) := by
      rw [AtStage, hothers j hj]; exact hat
    have hnil' : actuations rest = [] := by
      have hk : (stopsOnly n)[j]? = some (Stage.stopping rest).procedure := by
        obtain ⟨kind, hk⟩ := invocations_kind hrun hat
        rw [hk, stopsOnly_kind hk]
        rfl
      have := (invocations_atStage hrun hk hat).2
      exact (List.append_eq_nil_iff.mp (this.trans hempty)).2
    obtain ⟨t', m₂, stage', halone, hat₃, hcall⟩ := hat₂.reach_move (by
      intro d v hm
      rw [show actuations (Stage.stopping rest).pending = [] from hnil'] at hm
      cases hm)
    have hguard : m₂.shared.state = { m.shared.state with state := .eStopping } := by
      rw [halone.state, hshared]
      rfl
    obtain ⟨b, hb, hexec⟩ : ∃ b : (stage'.call config).Ans, Op.succeeds _ b ∧
        exec (stage'.call config) Env.fine m₂.shared = (some b,
          { m₂.shared with state := { m.shared.state with state := .standby } }) := by
      have hmove : m₂.shared.state.moveTo .standby
          = (.ok (), { m₂.shared.state with state := .standby }) :=
        Guard.moveTo_of_valid (by rw [hguard]; exact hsound) (by rw [hguard]; rfl)
      rw [hcall]
      refine ⟨.ok (), rfl, ?_⟩
      show (some (m₂.shared.state.moveTo .standby).1,
        { m₂.shared with state := (m₂.shared.state.moveTo .standby).2 }) = _
      rw [hmove, hguard]
    obtain ⟨s, hstep, hshared', -⟩ := hat₃.advance hb hexec
    refine ⟨_, s, (Run.head hs halone.run).tail hstep, fun h => ?_⟩
    refine h.stays _ m₂ _ s [] i action rest₁
      ⟨by simp, hrun.trans (Run.head hs halone.run), hstep, Run.refl⟩ (by rw [hguard]) ?_ ?_
    · rw [hshared']; rintro ⟨⟩
    · rw [AtStage, halone.others i hj.symm, ← hcons]
      exact hat₁

/-- **Exactly when one stop sequence excludes another.**  In every run whose late starts are
harmless, late starters write nothing and the guard stays in `EStopping` while there is something
left to do; and wherever an invocation can start late with harm, some continuation breaks it. -/
theorem one_stop_unless_harmful_late_start (config : Configuration) (n : Nat) (shared : Shared) :
    (∀ t s, Run (machine config) (invocations config (stopsOnly n) shared) t s →
      LateStartsHarmless config (invocations config (stopsOnly n) shared) t s →
      OneStopAtATime config (invocations config (stopsOnly n) shared) t s) ∧
    ∀ t m i j, Run (machine config) (invocations config (stopsOnly n) shared) t m → i < n →
      history i t = [] → j ≠ i → InStop config m j → Harmful config m.shared.driverLines →
      ∃ t' s, Run (machine config) m t' s ∧
        ¬ OneStopAtATime config (invocations config (stopsOnly n) shared) (t ++ t') s := by
  constructor
  · intro t s _ hcond
    exact oneStopAtATime_of_harmless hcond
  · intro t m i j hrun hi hnil hj hin hh
    exact not_oneStopAtATime_of_harmful hrun hi hnil hj hin hh

/-- The stand whose stop waits and then closes its driver. -/
def waitAndClose : Configuration :=
  Configuration.oneDriver [] [.sleep 1, .actuate 0 false]

/-- The driver lines are poisoned: a stop waits, a second one is let in beside it, and neither of them can
write; the guard stays where it is. -/
theorem blocked_stops_do_no_harm :
    ∃ t s t₁ m e m' t₂, Moment (machine waitAndClose)
        (invocations waitAndClose (stopsOnly 2)
          { Shared.new [true] with driverLines := ⟨[true], true⟩ }) t s t₁ m e m' t₂ ∧
      LateStart waitAndClose t₁ m e 0 ∧
      OneStopAtATime waitAndClose (invocations waitAndClose (stopsOnly 2)
        { Shared.new [true] with driverLines := ⟨[true], true⟩ }) t s ∧
      (∀ q ∈ s.threads, q.Finished) ∧ s.shared.state.state = .eStopping := by
  let M := machine waitAndClose
  let s₀ := invocations waitAndClose (stopsOnly 2)
    { Shared.new [true] with driverLines := ⟨[true], true⟩ }
  let before := (M.runSchedule [(0, Env.fine)] s₀).1
  let m := (M.runSchedule [(0, Env.fine)] s₀).2
  have hrun : Run M s₀ before m := run_runSchedule _ s₀
  let e : Event Op.Ans := ⟨1, ⟨.moveTo .eStopping, some (.ok ())⟩⟩
  obtain ⟨m', hs, hm'⟩ : ∃ m', M.StepTo m e m' ∧
      m' = (M.runSchedule [(1, Env.fine)] m).2 := ⟨_, ⟨1, Env.fine, rfl⟩, rfl⟩
  let after := (M.runSchedule ([0, 0, 1, 1].map fun i => (i, Env.fine)) m').1
  let s := (M.runSchedule ([0, 0, 1, 1].map fun i => (i, Env.fine)) m').2
  have hrun' : Run M m' after s := run_runSchedule _ m'
  have hmoment : Moment M s₀ (before ++ e :: after) s before m e m' after := ⟨rfl, hrun, hs, hrun'⟩
  have hcond : LateStartsHarmless waitAndClose s₀ (before ++ e :: after) s := by
    rintro t₁ m₁ e₁ m₂ t₂ j hmoment₁ - (⟨driverId, value, -, hsound, -⟩ | ⟨hnil, -⟩)
    · have hpoisoned := hmoment₁.along (I := fun _ m => m.shared.driverLines.poisoned = true) rfl
        fun _ _ _ _ _ hm h => (lines_step hm.step).2 h
      rw [hpoisoned] at hsound
      cases hsound
    · cases hnil
  have hends : (s.threads.all fun q => q.pending.isNone) = true ∧
      s.shared.state.state = .eStopping := by
    subst hm'
    decide +kernel
  simp only [List.all_eq_true, Option.isNone_iff_eq_none, Prog.pending_eq_none] at hends
  exact ⟨_, s, before, m, e, m', after, hmoment, ⟨rfl, nofun, _, rfl⟩,
    (one_stop_unless_harmful_late_start waitAndClose 2
      { Shared.new [true] with driverLines := ⟨[true], true⟩ }).1 _ s
      (hrun.trans (Run.head hs hrun')) hcond, hends⟩

/-- A stop starts, a second one is let in beside it, and writes. -/
theorem second_stop_interferes :
    ∃ t s, Run (machine waitAndClose) (invocations waitAndClose (stopsOnly 2) (Shared.new [true]))
        t s ∧
      ¬ OneStopAtATime waitAndClose (invocations waitAndClose (stopsOnly 2) (Shared.new [true]))
        t s := by
  let M := machine waitAndClose
  let s₀ := invocations waitAndClose (stopsOnly 2) (Shared.new [true])
  let m := (M.runSchedule [(0, Env.fine)] s₀).2
  have hrun : Run M s₀ (M.runSchedule [(0, Env.fine)] s₀).1 m := run_runSchedule _ s₀
  obtain ⟨m', hs, hm'⟩ : ∃ m', M.StepTo m ⟨1, ⟨.moveTo .eStopping, some (.ok ())⟩⟩ m' ∧
      m' = (M.runSchedule [(1, Env.fine)] m).2 := ⟨_, ⟨1, Env.fine, rfl⟩, rfl⟩
  let after := [1, 1].map fun i => (i, Env.fine)
  have hrun' : Run M m' (M.runSchedule after m').1 (M.runSchedule after m').2 :=
    run_runSchedule after m'
  refine ⟨_, _, hrun.trans (Run.head hs hrun'), fun hone => ?_⟩
  refine hone.late _ m _ m' _ 0 ⟨rfl, hrun, hs, hrun'⟩ ⟨rfl, nofun, _, rfl⟩ ?_
  subst hm'
  exact ⟨⟨1, ⟨.write 0 false, some (.ok ())⟩⟩, List.mem_of_getElem? (i := 1) rfl, rfl, nofun⟩

end Slonk
