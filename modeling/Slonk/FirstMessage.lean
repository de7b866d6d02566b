/-
# The first message to a dashboard

A dashboard is told the configuration before anything else: the accept thread installs the channel
(`set_channel`), logs a line, and sends the configuration (`handle_client`).  These are two critical
sections, and in between the channel is there for every thread that sends: a sensor thread or
`driver_status_listen` may be first.

`installing` tells from a thread's calls whether it is between the two.  As long as no other thread
sends while one is (`SendsAhead`), the first message of every channel is the configuration
(`config_first_unless_sent_ahead`), and with one accept thread the first send that breaks this is the
first message of its channel.
-/
import Slonk.Nesting

namespace Slonk

open Concurrency

/-! ## 1. The property -/

/-- **The dashboard sees the configuration first.** -/
def ConfigFirst (config : Configuration) (c : Controller) : Prop :=
  ∀ message rest, c.shared.toDash.dashChannel.val = some (message :: rest) →
    message = .config config

/-- What a call does to the thread's debt of a first message. -/
def debtAfter (debt : Bool) : Call Act.Ans → Bool
  | ⟨.setChannel, some (.ok ())⟩ => true
  | ⟨.op (.send _), _⟩ => false
  | _ => debt

/-- The thread has installed a channel, and sent nothing since. -/
def installing (h : List (Call Act.Ans)) : Bool := h.foldl debtAfter false

/-- **A message is sent ahead of the configuration**: its thread sends it while another one is between
`set_channel` and `send`. -/
def SendsAhead (t : List (Event Act.Ans)) (e : Event Act.Ans) : Prop :=
  (∃ message, e.call.op = .op (.send message)) ∧ installing (history e.tid t) = false ∧
    ∃ j, installing (history j t) = true

theorem installing_concat (h : List (Call Act.Ans)) (call : Call Act.Ans) :
    installing (h ++ [call]) = debtAfter (installing h) call := by
  simp [installing]

/-- Who is installing a channel has installed it. -/
theorem mem_of_installing {h : List (Call Act.Ans)} (hi : installing h = true) :
    ⟨.setChannel, some (.ok ())⟩ ∈ h := by
  induction h using List.reverseRecOn with
  | nil => cases hi
  | append_singleton h call ih =>
    rw [installing_concat] at hi
    unfold debtAfter at hi
    split at hi
    · simp
    · cases hi
    · exact List.mem_append_left _ (ih hi)

theorem installing_history {t : List (Event Act.Ans)} {e : Event Act.Ans} (j : Nat) :
    installing (history j (t ++ [e]))
      = if e.tid = j then debtAfter (installing (history j t)) e.call
        else installing (history j t) := by
  by_cases h : e.tid = j
  · subst h
    rw [if_pos rfl, history_concat_self, installing_concat]
  · rw [if_neg h, history_concat_other t h]

/-! ## 2. The channel -/

/-- A lock that `send` takes is poisoned, so nothing more is sent. -/
def Silenced (c : Controller) : Prop :=
  c.shared.toDash.dashChannel.poisoned = true ∨ c.shared.toDash.messageLog.poisoned = true

theorem silenced_foldl_poison {guards : List Lock} {c : Controller} (h : Silenced c) :
    Silenced (guards.foldl Controller.poison c) := by
  induction guards generalizing c with
  | nil => exact h
  | cons l guards ih =>
    refine ih ?_
    cases l with
    | dashChannel => exact Or.inl rfl
    | messageLog => exact Or.inr rfl
    | _ => exact h

theorem channel_foldl_poison (guards : List Lock) (c : Controller) :
    (guards.foldl Controller.poison c).shared.toDash.dashChannel.val
      = c.shared.toDash.dashChannel.val :=
  Controller.foldl_poison (f := fun c => c.shared.toDash.dashChannel.val)
    (fun _ l => by cases l <;> rfl) guards c

/-- **Only `send` and `set_channel` touch the channel.** -/
theorem channel_of_exec {a : Act} (hsend : ∀ message, a ≠ .op (.send message))
    (hset : a ≠ .setChannel) (w : World) (c : Controller) :
    (a.exec w c).2.shared.toDash.dashChannel.val = c.shared.toDash.dashChannel.val ∧
      (Silenced c → Silenced (a.exec w c).2) := by
  cases a with
  | unwind guards => exact ⟨channel_foldl_poison guards c, silenced_foldl_poison⟩
  | setChannel => exact absurd rfl hset
  | readLine driverIdx =>
    simp only [Act.exec]
    split <;> exact ⟨rfl, id⟩
  | heartbeat value =>
    simp only [Act.exec]
    split <;> exact ⟨rfl, id⟩
  | op o =>
    have hdash : (exec o w.toEnv c.shared).2.toDash = c.shared.toDash :=
      exec_toDash (fun message h => hsend message (congrArg Act.op h)) w.toEnv c.shared
    simp only [Act.exec, Silenced, hdash, imp_self, and_self]
  | _ => exact ⟨rfl, id⟩

/-- **What `send` does to the channel**: nothing if a lock is poisoned or no dashboard is there, and
otherwise the message is at its end, or the channel is gone. -/
theorem channel_of_send (message : Message) (w : World) (c : Controller) :
    (Silenced c ∧ ((Act.op (.send message)).exec w c).2 = c) ∨
      ¬ Silenced c ∧ (((Act.op (.send message)).exec w c).2.shared.toDash.dashChannel.val = none ∨
        ∃ sent, c.shared.toDash.dashChannel.val = some sent ∧
          ((Act.op (.send message)).exec w c).2.shared.toDash.dashChannel.val
            = some (sent ++ [message])) := by
  simp only [Act.exec, exec, DashChannel.send, Silenced]
  split
  · rename_i hp
    exact Or.inl ⟨Or.inl hp, rfl⟩
  · rename_i hp
    split
    · rename_i hp'
      exact Or.inl ⟨Or.inr hp', rfl⟩
    · rename_i hp'
      refine Or.inr ⟨by simp [hp, hp'], ?_⟩
      cases hval : c.shared.toDash.dashChannel.val with
      | none => exact Or.inl hval
      | some sent =>
        dsimp only
        split
        · exact Or.inl rfl
        · split <;> exact Or.inr ⟨sent, rfl, rfl⟩

/-- **What `set_channel` does to it.** -/
theorem channel_of_setChannel (w : World) (c : Controller) :
    (Silenced c ∧ (Act.setChannel.exec w c).2 = c) ∨
      ((Act.setChannel.exec w c).2.shared.toDash.dashChannel.val = some [] ∧
        (Act.setChannel.exec w c).1 = some (.ok ())) := by
  simp only [Act.exec, DashChannel.setChannel, Silenced]
  split
  · rename_i hp
    exact Or.inl ⟨Or.inl hp, rfl⟩
  · exact Or.inr ⟨rfl, rfl⟩

/-! ## 3. Who sends what -/

variable {F : Type} [F64 F] {config : Configuration} {profile : Profile}
  {fromSlice : List UInt8 → Option Command} {threads : List Thread} {c : Controller}
  {t : List (Event Act.Ans)} {s s' : Sys Act Act.Ans Controller} {e : Event Act.Ans}

/-- Who is installing a channel is an accept thread, and sends nothing but the configuration. -/
theorem accepting_of_installing
    (hrun : Run (controller config) (controllerOf F config profile fromSlice threads c) t s)
    {i : Nat} {q : Prog Act Act.Ans Unit} (hq : s.threads[i]? = some q)
    (hi : installing (history i t) = true) :
    (∃ turns, threads[i]? = some (.accepting turns)) ∧
      q.All fun a => ∀ message, a = .op (.send message) → message = .config config := by
  obtain ⟨thread, horigin, hperforms, hall⟩ := performs_of_run hrun hq
  have hset : thread.Performs config .setChannel := hperforms _ (mem_of_installing hi)
  cases thread with
  | accepting turns =>
    refine ⟨⟨turns, ?_⟩, hall.mono ?_⟩
    · rcases horigin with h | ⟨cmd, h⟩ | h
      · exact h
      · cases h
      · cases h
    · rintro a ha message rfl
      exact ha.resolve_left id
  | sensorListen groupId logFiles turns => exact (hset.elim id id).elim
  | driverStatusListen turns => exact (hset.elim id id).elim
  | heartbeat turns => simp [Thread.Performs, Act.Common] at hset
  | handleCommand cmd => simp [Thread.Performs, Act.Common] at hset
  | emergencyStop => simp [Thread.Performs, Act.Common] at hset

/-- Every other thread sends anything but the configuration. -/
theorem not_config_of_not_accepting
    (hrun : Run (controller config) (controllerOf F config profile fromSlice threads c) t s)
    {i : Nat} {message : Message} {k : _ → Prog Act Act.Ans Unit}
    (hq : s.threads[i]? = some (.op (.op (.send message)) k))
    (hi : ∀ turns, threads[i]? ≠ some (.accepting turns)) : message ≠ .config config := by
  obtain ⟨thread, horigin, -, hall⟩ := performs_of_run hrun hq
  have hsend : thread.Performs config (.op (.send message)) := hall.1
  rintro rfl
  cases thread with
  | accepting turns =>
    rcases horigin with h | ⟨cmd, h⟩ | h
    · exact hi turns h
    · cases h
    · cases h
  | sensorListen groupId logFiles turns =>
    obtain ⟨readings, h⟩ := hsend.resolve_left id
    cases h
  | driverStatusListen turns =>
    obtain ⟨values, h⟩ := hsend.resolve_left id
    cases h
  | heartbeat turns => simp [Thread.Performs, Act.Common] at hsend
  | handleCommand cmd => simp [Thread.Performs, Act.Common] at hsend
  | emergencyStop => simp [Thread.Performs, Act.Common] at hsend

/-- An operation that is not about the channel leaves the debts alone. -/
theorem debtAfter_of_ne {call : Call Act.Ans} (hsend : ∀ message, call.op ≠ .op (.send message))
    (hset : call.op ≠ .setChannel) (debt : Bool) : debtAfter debt call = debt := by
  unfold debtAfter
  split
  · exact absurd rfl hset
  · exact absurd rfl (hsend _)
  · rfl

theorem installing_of_ne (hsend : ∀ message, e.call.op ≠ .op (.send message))
    (hset : e.call.op ≠ .setChannel) (j : Nat) :
    installing (history j (t ++ [e])) = installing (history j t) := by
  rw [installing_history, debtAfter_of_ne hsend hset, ite_self]

/-- **What a step does to the channel**: nothing, a message at its end or its loss, or a new one. -/
theorem channel_cases (hstep : (controller config).StepTo s e s') :
    (s'.shared.shared.toDash.dashChannel.val = s.shared.shared.toDash.dashChannel.val ∧
      (Silenced s.shared → Silenced s'.shared) ∧
      (Silenced s.shared ∨
        (∀ message, e.call.op ≠ .op (.send message)) ∧ e.call.op ≠ .setChannel)) ∨
    (∃ message, e.call.op = .op (.send message) ∧ ¬ Silenced s.shared ∧
      (s'.shared.shared.toDash.dashChannel.val = none ∨
        ∃ sent, s.shared.shared.toDash.dashChannel.val = some sent ∧
          s'.shared.shared.toDash.dashChannel.val = some (sent ++ [message]))) ∨
    (e.call = ⟨.setChannel, some (.ok ())⟩ ∧
      s'.shared.shared.toDash.dashChannel.val = some []) := by
  obtain ⟨w, hans, hexec⟩ := hstep.exec
  obtain ⟨tid, a, ans⟩ := e
  have hexec : s'.shared = (a.exec w s.shared).2 := hexec
  have hans : ans = (a.exec w s.shared).1 := hans
  rw [hexec]
  by_cases hset : a = .setChannel
  · subst hset
    rcases channel_of_setChannel w s.shared with ⟨hsilenced, heq⟩ | ⟨hval, hok⟩
    · rw [heq]
      exact Or.inl ⟨rfl, id, Or.inl hsilenced⟩
    · exact Or.inr (Or.inr ⟨by rw [hans, hok], hval⟩)
  · by_cases hsend : ∃ message, a = .op (.send message)
    · obtain ⟨message, rfl⟩ := hsend
      rcases channel_of_send message w s.shared with ⟨hsilenced, heq⟩ | ⟨hnot, hval⟩
      · rw [heq]
        exact Or.inl ⟨rfl, id, Or.inl hsilenced⟩
      · exact Or.inr (Or.inl ⟨message, rfl, hnot, hval⟩)
    · push Not at hsend
      obtain ⟨hval, hsilenced⟩ := channel_of_exec hsend hset w s.shared
      exact Or.inl ⟨hval, hsilenced, Or.inr ⟨hsend, hset⟩⟩

/-! ## 4. The invariant -/

/-- A channel that nothing was written to is in somebody's debt, or dead; and the first message of
any other is the configuration. -/
structure Announced (config : Configuration) (t : List (Event Act.Ans)) (c : Controller) : Prop where
  empty : c.shared.toDash.dashChannel.val = some [] →
    Silenced c ∨ ∃ j, installing (history j t) = true
  first : ConfigFirst config c

/-- **One step.** -/
theorem Announced.step
    (hrun : Run (controller config) (controllerOf F config profile fromSlice threads c) t s)
    (hstep : (controller config).StepTo s e s') (hg : ¬ SendsAhead t e)
    (h : Announced config t s.shared) : Announced config (t ++ [e]) s'.shared := by
  rcases channel_cases hstep with ⟨hval, hsilenced, hop⟩ | ⟨message, hop, hnot, hval⟩ | ⟨hcall, hval⟩
  · refine ⟨fun hempty => ?_, fun m rest hm => h.first m rest (hval.symm.trans hm)⟩
    rcases hop with hs | ⟨hsend, hset⟩
    · exact Or.inl (hsilenced hs)
    · simpa only [installing_of_ne hsend hset]
        using (h.empty (hval.symm.trans hempty)).imp_left hsilenced
  · rcases hval with hnone | ⟨sent, hval, heq⟩
    · constructor
      · exact fun hempty => nomatch hnone.symm.trans hempty
      · exact fun m rest hm => nomatch hnone.symm.trans hm
    · refine ⟨fun hempty => ?_, fun m rest hm => ?_⟩
      · simpa using heq.symm.trans hempty
      · have hcons : sent ++ [message] = m :: rest := Option.some.inj (heq.symm.trans hm)
        cases sent with
        | cons m₀ sent =>
          obtain ⟨rfl, -⟩ := List.cons.inj hcons
          exact h.first _ sent hval
        | nil =>
          obtain ⟨rfl, -⟩ := List.cons.inj hcons
          -- the channel is in somebody's debt, and that is who sends
          obtain ⟨j, hj⟩ := (h.empty hval).resolve_left hnot
          have hself : installing (history e.tid t) = true := by
            by_contra hno
            exact hg ⟨⟨message, hop⟩, by simpa using hno, j, hj⟩
          obtain ⟨k, hk, -⟩ := hstep.self
          exact (accepting_of_installing hrun hk hself).2.1 message hop
  · refine ⟨fun _ => Or.inr ⟨e.tid, ?_⟩, fun m rest hm => ?_⟩
    · rw [installing_history, if_pos rfl, hcall]
      rfl
    · simpa using hval.symm.trans hm

/-- **Every run.** -/
theorem announced_of_run {lines : List Bool}
    (hrun : ControllerRun F config profile fromSlice (fun t _ e => ¬ SendsAhead t e) threads
      (.new lines) t s) : Announced config t s.shared := by
  induction hrun with
  | refl => exact ⟨nofun, nofun⟩
  | tail hr hs hg ih => exact ih.step hr.run hs hg.2

/-! ## 5. One accept thread -/

/-- At most one of the threads accepts clients. -/
def OneAccepting (threads : List Thread) : Prop :=
  ∀ i j n n' : Nat, threads[i]? = some (.accepting n) → threads[j]? = some (.accepting n') → i = j

/-- A channel somebody is in debt of is empty, or dead. -/
def Owed (t : List (Event Act.Ans)) (c : Controller) : Prop :=
  ∀ j, installing (history j t) = true →
    c.shared.toDash.dashChannel.val = some [] ∨ Silenced c

/-- Who is installing a channel is one of the accept threads. -/
theorem turns_of_installing
    (hrun : Run (controller config) (controllerOf F config profile fromSlice threads c) t s)
    {j : Nat} (hj : installing (history j t) = true) :
    ∃ turns, threads[j]? = some (.accepting turns) := by
  obtain ⟨e, he, rfl, -⟩ := mem_history.mp (mem_of_installing hj)
  obtain ⟨q, hq⟩ := hrun.thread_of_mem he
  exact (accepting_of_installing hrun hq hj).1

section OneAccepting

variable (hone : OneAccepting threads)

include hone

theorem installing_unique
    (hrun : Run (controller config) (controllerOf F config profile fromSlice threads c) t s)
    {i j : Nat} (hi : installing (history i t) = true) (hj : installing (history j t) = true) :
    i = j := by
  obtain ⟨n, hn⟩ := turns_of_installing hrun hi
  obtain ⟨n', hn'⟩ := turns_of_installing hrun hj
  exact hone i j n n' hn hn'

/-- **One step.** -/
theorem Owed.step
    (hrun : Run (controller config) (controllerOf F config profile fromSlice threads c) t s)
    (hstep : (controller config).StepTo s e s') (hg : ¬ SendsAhead t e) (h : Owed t s.shared) :
    Owed (t ++ [e]) s'.shared := by
  intro j hj
  rcases channel_cases hstep with ⟨hval, hsilenced, hop⟩ | ⟨message, hop, -, -⟩ | ⟨-, hval⟩
  · rcases hop with hs | ⟨hsend, hset⟩
    · exact Or.inr (hsilenced hs)
    · rw [installing_of_ne hsend hset] at hj
      rw [hval]
      exact (h j hj).imp_right hsilenced
  · -- who is in debt after a send of another thread was so before it
    obtain ⟨tid, a, ans⟩ := e
    obtain rfl : a = .op (.send message) := hop
    rw [installing_history] at hj
    split at hj
    · cases hj
    · rename_i hne
      refine absurd ⟨⟨message, rfl⟩, ?_, j, hj⟩ hg
      by_contra hself
      exact hne (installing_unique hone hrun (by simpa using hself) hj)
  · exact Or.inl hval

theorem owed_of_run {lines : List Bool}
    (hrun : ControllerRun F config profile fromSlice (fun t _ e => ¬ SendsAhead t e) threads
      (.new lines) t s) : Owed t s.shared := by
  induction hrun with
  | refl => exact nofun
  | tail hr hs hg ih => exact ih.step hone hr.run hs hg.2

/-- **The first send that is ahead of the configuration** is the first message of the channel. -/
theorem not_configFirst_of_sendsAhead {lines : List Bool}
    (hrun : ControllerRun F config profile fromSlice (fun t _ e => ¬ SendsAhead t e) threads
      (.new lines) t s) (hstep : (controller config).StepTo s e s') (he : SendsAhead t e)
    (hsound : s'.shared.Sound) (hval : s'.shared.shared.toDash.dashChannel.val ≠ none) :
    ¬ ConfigFirst config s'.shared := by
  obtain ⟨⟨message, hop⟩, hself, j, hj⟩ := he
  have hnot : ¬ Silenced s'.shared := by
    rintro (h | h)
    · cases (hsound .dashChannel).symm.trans h
    · cases (hsound .messageLog).symm.trans h
  obtain ⟨m, hm, hnot', hval'⟩ : ∃ m, e.call.op = .op (.send m) ∧ ¬ Silenced s.shared ∧
      (s'.shared.shared.toDash.dashChannel.val = none ∨
        ∃ sent, s.shared.shared.toDash.dashChannel.val = some sent ∧
          s'.shared.shared.toDash.dashChannel.val = some (sent ++ [m])) := by
    rcases channel_cases hstep with ⟨-, hsilenced, hs | ⟨hsend, -⟩⟩ | h | ⟨hcall, -⟩
    · exact absurd (hsilenced hs) hnot
    · exact absurd hop (hsend message)
    · exact h
    · rw [hcall] at hop
      cases hop
  have hempty := (owed_of_run hone hrun j hj).resolve_right hnot'
  obtain ⟨sent, hsent, hfirst⟩ := hval'.resolve_left hval
  obtain rfl : sent = [] := Option.some.inj (hsent.symm.trans hempty)
  intro hconfig
  have hm' : m = .config config := hconfig m [] hfirst
  -- but who sends is no accept thread
  obtain ⟨k, hk, -⟩ := hstep.self
  obtain ⟨tid, a, ans⟩ := e
  obtain rfl : a = .op (.send m) := hm
  refine not_config_of_not_accepting hrun.run hk (fun n hn => ?_) hm'
  obtain ⟨n', hn'⟩ := turns_of_installing hrun.run hj
  obtain rfl := hone tid j n n' hn hn'
  exact absurd (hself.symm.trans hj) (by simp)

end OneAccepting

/-! ## 6. The condition -/

/-- **Every dashboard sees the configuration first unless another message is sent ahead of it**: in
every run of any threads in which no thread sends while another one is between `set_channel` and
`send`.  With one accept thread the first such message that is written is the first of its
channel. -/
theorem config_first_unless_sent_ahead (F : Type) [F64 F] (config : Configuration)
    (profile : Profile) (fromSlice : List UInt8 → Option Command) (threads : List Thread)
    (lines : List Bool) :
    (∀ t s, ControllerRun F config profile fromSlice (fun t _ e => ¬ SendsAhead t e) threads
      (.new lines) t s → ConfigFirst config s.shared) ∧
    (OneAccepting threads →
      ∀ t s e s', ControllerRun F config profile fromSlice (fun t _ e => ¬ SendsAhead t e) threads
        (.new lines) t s → (controller config).StepTo s e s' → SendsAhead t e →
      s'.shared.Sound → s'.shared.shared.toDash.dashChannel.val ≠ none →
        ¬ ConfigFirst config s'.shared) :=
  ⟨fun _ _ hrun => (announced_of_run hrun).first, fun hone _ _ _ _ hrun hstep he hsound hval =>
    not_configFirst_of_sendsAhead hone hrun hstep he hsound hval⟩

/-- A client connects, and `driver_status_listen` sends a status only after the configuration has been
sent: the dashboard sees the configuration first. -/
theorem status_after_config : ∃ t s,
    ControllerRun ℚ (.oneDriver [] []) .release (fun _ => none) (fun t _ e => ¬ SendsAhead t e)
      [.accepting 1, .driverStatusListen 1] (.new [false]) t s ∧
    (∃ first, s.shared.shared.toDash.dashChannel.val = some [first, .driverValue [false]]) ∧
    ConfigFirst (.oneDriver [] []) s.shared := by
  obtain ⟨t, s, hrun, hp⟩ := exists_guardedRun (M := controller (.oneDriver [] []))
    (G := fun t s e => Locks.Grants t s e ∧ ¬ SendsAhead t e)
    -- nobody moves while another thread is between the two
    (C := fun t s e => Locks.grants t s e &&
      t.all fun e' => !installing (history e'.tid t) || decide (e'.tid = e.tid))
    (fun t s e h => by
      simp only [Bool.and_eq_true, List.all_eq_true] at h
      refine ⟨Locking.grants_of_grants h.1, ?_⟩
      rintro ⟨-, hself, j, hj⟩
      obtain ⟨e', he', rfl, -⟩ := mem_history.mp (mem_of_installing hj)
      have hsame := h.2 e' he'
      rw [hj, Bool.not_true, Bool.false_or, decide_eq_true_eq] at hsame
      rw [hsame, hself] at hj
      cases hj)
    (List.replicate 17 (0, World.fine) ++ List.replicate 17 (1, World.fine) ++
      List.replicate 6 (0, World.fine))
    (s := controllerOf ℚ (.oneDriver [] []) .release (fun _ => none)
      [.accepting 1, .driverStatusListen 1] (.new [false]))
    (P := fun _ s => s.shared.shared.toDash.dashChannel.val.any fun messages : List Message =>
      decide (messages.tail = [Message.driverValue [false]]))
    (by decide +kernel)
  obtain ⟨messages, hval, htail⟩ := (Option.any_eq_true _ _).mp hp
  obtain ⟨hfirst, -⟩ := config_first_unless_sent_ahead ℚ (.oneDriver [] []) .release
    (fun _ => none) [.accepting 1, .driverStatusListen 1] [false]
  cases messages with
  | nil => simp at htail
  | cons first rest =>
    obtain rfl : rest = [.driverValue [false]] := of_decide_eq_true htail
    exact ⟨t, s, hrun, ⟨first, hval⟩, hfirst t s hrun⟩

/-- **A status sent ahead**: a client has connected, the accept thread has installed its channel, and
`driver_status_listen` sends before the configuration is sent. -/
theorem status_before_config : ∃ t s,
    ControllerRun ℚ (.oneDriver [] []) .release (fun _ => none) (fun _ s _ => s.shared.Sound)
      [.accepting 1, .driverStatusListen 1] (.new [false]) t s ∧
    s.shared.shared.toDash.dashChannel.val = some [.driverValue [false]] ∧
    ¬ ConfigFirst (.oneDriver [] []) s.shared := by
  obtain ⟨t, s, hrun, hp⟩ := exists_guardedRun (M := controller (.oneDriver [] []))
    (G := fun t s e => Locks.Grants t s e ∧ s.shared.Sound)
    (C := fun t s e => Locks.grants t s e && s.shared.sound)
    (fun t s e h => by
      simp only [Bool.and_eq_true] at h
      exact ⟨Locking.grants_of_grants h.1, Controller.sound_of_sound h.2⟩)
    (List.replicate 9 (0, World.fine) ++ List.replicate 13 (1, World.fine))
    (s := controllerOf ℚ (.oneDriver [] []) .release (fun _ => none)
      [.accepting 1, .driverStatusListen 1] (.new [false]))
    (P := fun t s => decide (s.shared.shared.toDash.dashChannel.val = some [.driverValue [false]]))
    (by decide +kernel)
  have hval := of_decide_eq_true hp
  refine ⟨t, s, hrun, hval, fun h => ?_⟩
  cases h _ _ hval

end Slonk
