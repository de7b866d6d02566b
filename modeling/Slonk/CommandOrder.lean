/-
# Are commands executed in the order they are sent?

`handle_client` spawns the threads of `Ignition` and `EmergencyStop` in the order of the commands,
but nothing makes the first one run first.  The dashboard sends `Ignition` and then, seeing
something go wrong, `EmergencyStop`; if the second thread is faster, the stop runs through an idle
engine, and the ignition it was meant to prevent starts afterwards.

What the order of spawning does give is this: when the stop's thread exists, every earlier
ignition's thread exists too.  So the order is respected exactly as far as those threads have
made their entry by the time of the stop (`IgnitionPending`).
-/
import Slonk.Server
import Slonk.Framing

namespace Slonk

open Concurrency

variable {config : Configuration} {profile : Profile} {fromSlice : List UInt8 → Option Command}
  {α β : Type} {cmds : List Command} {cmd : Command} {m m' s s' : System} {e : Event Op.Ans}
  {t : Trace} {src : Source} {shared : Shared}

/-! ## 1. What a program spawns -/

/-- The threads a program spawns, on any path, handle `cmds` in order, as far as it gets. -/
def Spawns : Prog Op Op.Ans α → List Command → Prop
  | .ret _, _ => True
  | .panic, _ => True
  | .op (.spawn cmd) k, cmds => ∃ rest, cmds = cmd :: rest ∧ ∀ a, Spawns (k a) rest
  | .op _ k, cmds => ∀ a, Spawns (k a) cmds

/-- An operation that is not a `spawn`. -/
theorem spawns_op {o : Op} {k : o.Ans → Prog Op Op.Ans α} (ho : ∀ cmd, o ≠ .spawn cmd) :
    Spawns (.op o k) cmds ↔ ∀ a, Spawns (k a) cmds := by
  cases o with
  | spawn cmd => exact absurd rfl (ho cmd)
  | _ => exact Iff.rfl

/-- A first part that spawns nothing. -/
theorem Spawns.bind {p : Prog Op Op.Ans α} {f : α → Prog Op Op.Ans β}
    (hp : p.All fun o => ∀ cmd, o ≠ .spawn cmd) (hf : ∀ a, Spawns (f a) cmds) :
    Spawns (p.bind f) cmds := by
  induction p with
  | ret a => exact hf a
  | panic => trivial
  | op o k ih => exact (spawns_op hp.1).mpr fun a => ih a (hp.2 a)

theorem Spawns.seq {ε : Type} {p : Proc ε α} {f : α → Proc ε β}
    (hp : p.run.All fun o => ∀ cmd, o ≠ .spawn cmd) (hf : ∀ a, Spawns (f a).run cmds) :
    Spawns (p >>= f).run cmds := by
  refine Spawns.bind (f := thenRun f) hp fun r => ?_
  cases r with
  | error e => trivial
  | ok a => exact hf a

theorem Spawns.discard {p : Prog Op Op.Ans α} (h : Spawns p cmds) : Spawns p.discard cmds := by
  induction p generalizing cmds with
  | ret a => trivial
  | panic => trivial
  | op o k ih =>
    by_cases ho : ∃ cmd, o = .spawn cmd
    · obtain ⟨cmd, rfl⟩ := ho
      obtain ⟨rest, rfl, hk⟩ := h
      exact ⟨rest, rfl, fun a => ih a (hk a)⟩
    · have ho' : ∀ cmd, o ≠ .spawn cmd := fun cmd h => ho ⟨cmd, h⟩
      exact (spawns_op ho').mpr fun a => ih a ((spawns_op ho').mp h a)

/-- A program that spawns only these spawns one of them. -/
theorem Spawns.mem {p : Prog Op Op.Ans α} (h : Spawns p cmds) :
    p.All fun o => ∀ cmd, o = .spawn cmd → cmd ∈ cmds := by
  induction p generalizing cmds with
  | ret a => trivial
  | panic => trivial
  | op o k ih =>
    by_cases ho : ∃ cmd, o = .spawn cmd
    · obtain ⟨cmd, rfl⟩ := ho
      obtain ⟨rest, rfl, hk⟩ := h
      refine ⟨fun cmd' hcmd' => ?_, fun a => (ih a (hk a)).mono fun o hmem cmd' hcmd' => ?_⟩
      · obtain rfl := Op.spawn.inj hcmd'
        exact List.mem_cons_self
      · exact List.mem_cons_of_mem _ (hmem cmd' hcmd')
    · have ho' : ∀ cmd, o ≠ .spawn cmd := fun cmd h => ho ⟨cmd, h⟩
      exact ⟨fun cmd hcmd => absurd hcmd (ho' cmd), fun a => ih a ((spawns_op ho').mp h a)⟩

/-- A program that spawns only these spawns an ignition only if there is one among them. -/
theorem Spawns.all {p : Prog Op Op.Ans α} (h : Spawns p cmds) (hi : .ignition ∉ cmds) :
    p.All (· ≠ .spawn .ignition) := by
  refine h.mem.mono ?_
  intro o hmem heq
  exact hi (hmem .ignition heq)

/-! ## 2. What the client's thread spawns -/

theorem logUser_all {P : Op → Prop} (hlog : ∀ o, Op.Logs o → P o) (level : LogLevel)
    (message : UserMessage) : (logUser level message).run.All P := by
  refine ⟨hlog _ trivial, fun a => ?_⟩
  cases a <;> trivial

/-- An `Actuate` logs and writes. -/
theorem execute_actuate_all {P : Op → Prop} {driverId : UInt8} {value : Bool}
    (hw : P (.write driverId value)) : (execute config (.actuate driverId value)).run.All P := by
  simp only [execute]
  split
  · trivial
  · exact ⟨hw, fun a => by cases a <;> trivial⟩

theorem actuateInline_all {P : Op → Prop} (hlog : ∀ o, Op.Logs o → P o) {driverId : UInt8}
    {value : Bool} (hw : P (.write driverId value)) :
    (actuateInline config driverId value).run.All P := by
  refine Prog.All.bind (f := thenRun _) ?_ fun r => ?_
  · exact Prog.All.bind (handleCommand_all hlog (execute_actuate_all hw)) fun _ => trivial
  · match r with
    | .error e => trivial
    | .ok (.error e) => exact logUser_all hlog _ _
    | .ok (.ok ()) => exact logUser_all hlog _ _

theorem not_spawn_of_logs {o : Op} (ho : o.Logs) (cmd : Command) : o ≠ .spawn cmd := by
  rintro rfl
  exact ho

/-- A turn of the loop logs, writes for an `Actuate` and spawns for any other command. -/
theorem handleMessage_all {P : Op → Prop} (hlog : ∀ o, Op.Logs o → P o)
    {result : Except IncomingError Command}
    (hw : ∀ driverId value, result = .ok (.actuate driverId value) → P (.write driverId value))
    (hspawn : ∀ cmd, result = .ok cmd → (∀ driverId value, cmd ≠ .actuate driverId value) →
      P (.spawn cmd)) : (handleMessage config result).run.All P := by
  have hend : ∀ (level : LogLevel) (message : UserMessage) (b : Bool),
      (logUser level message >>= fun _ => pure b : Proc ControllerError Bool).run.All P :=
    fun level message b => Prog.All.bind (f := thenRun _) (logUser_all hlog level message)
      fun r => by cases r <;> trivial
  match result with
  | .error (.malformed message) => exact hend _ _ _
  | .error (.io .unexpectedEof) => exact hend _ _ _
  | .error (.io .connectionReset) => exact hend _ _ _
  | .error (.io .interrupted) => exact hend _ _ _
  | .error (.io (.other description)) => exact hend _ _ _
  | .ok (.actuate driverId value) =>
    exact Prog.All.bind (f := thenRun _) (actuateInline_all hlog (hw driverId value rfl)) fun r => by
      cases r <;> trivial
  | .ok .ignition => exact ⟨hspawn _ rfl nofun, fun _ => hend _ _ _⟩
  | .ok .emergencyStop => exact ⟨hspawn _ rfl nofun, fun _ => hend _ _ _⟩

/-- An `Ignition` or an `EmergencyStop` is handed to a thread of its own. -/
theorem handleMessage_spawns (hcmd : ∀ driverId value, cmd ≠ .actuate driverId value)
    {p : Proc ControllerError Unit} (hp : Spawns p.run cmds) :
    Spawns (handleMessage config (.ok cmd) >>= fun b => if b then p else pure ()).run
      (cmd :: cmds) := by
  have hlog : Spawns (logUser .debug (.text "Finished executing command.") >>= fun _ => p).run
      cmds :=
    Spawns.seq (logUser_all (fun _ => not_spawn_of_logs) _ _) fun _ => hp
  cases cmd with
  | actuate driverId value => exact absurd rfl (hcmd driverId value)
  | ignition =>
    simp only [handleMessage, bind_assoc, pure_bind]
    exact ⟨cmds, rfl, fun _ => hlog⟩
  | emergencyStop =>
    simp only [handleMessage, bind_assoc, pure_bind]
    exact ⟨cmds, rfl, fun _ => hlog⟩

/-- **The loop spawns what the stream decodes to**, `Actuate` aside. -/
theorem handleClientLoop_spawns (fuel : Nat) (src : Source) :
    Spawns (handleClientLoop config profile fromSlice fuel src).run
      (spawned (decodeWith profile fromSlice fuel src)) := by
  -- a message that spawns nothing
  have hskip : ∀ {result : Except IncomingError Command} {p : Proc ControllerError Unit}
      {cmds : List Command},
      (∀ cmd, result = .ok cmd → ∃ driverId value, cmd = .actuate driverId value) →
      Spawns p.run cmds →
      Spawns (handleMessage config result >>= fun b => if b then p else pure ()).run cmds := by
    intro result p cmds h hp
    have hall : (handleMessage config result).run.All fun o => ∀ cmd, o ≠ .spawn cmd := by
      refine handleMessage_all (fun _ => not_spawn_of_logs) (by rintro _ _ _ _ ⟨⟩) ?_
      intro cmd hcmd hne
      obtain ⟨driverId, value, rfl⟩ := h cmd hcmd
      exact absurd rfl (hne driverId value)
    refine Spawns.seq hall fun b => ?_
    cases b with
    | false => trivial
    | true => exact hp
  refine handleClientLoop_induct (motive := fun p cmds => Spawns p.run (spawned cmds))
    trivial ?_ ?_ ?_ fuel src
  · exact Spawns.seq (logUser_all (fun _ => not_spawn_of_logs) _ _) fun _ => trivial
  · intro e p cmds _ _ hp
    exact hskip (by rintro _ ⟨⟩) hp
  · intro cmd p cmds hp
    cases cmd with
    | actuate driverId value => exact hskip (by rintro _ ⟨⟩; exact ⟨_, _, rfl⟩) hp
    | ignition => exact handleMessage_spawns (by rintro _ _ ⟨⟩) hp
    | emergencyStop => exact handleMessage_spawns (by rintro _ _ ⟨⟩) hp

/-- **`handle_client` spawns what the stream decodes to**, `Actuate` aside. -/
theorem handleClient_spawns (src : Source) :
    Spawns (handleClient config profile fromSlice src).run.discard
      (spawned (decode profile fromSlice src)) := by
  refine Spawns.discard ?_
  refine Spawns.seq ⟨nofun, fun a => by cases a <;> trivial⟩ fun _ => ?_
  exact Spawns.seq (logUser_all (fun _ => not_spawn_of_logs) _ _) fun _ =>
    handleClientLoop_spawns (src.length + 1) src

/-! ## 3. The threads of a client -/

/-- Threads other than the client's own spawn nothing. -/
theorem commandThread_all {P : Op → Prop} (hlog : ∀ o, Op.Logs o → P o)
    (hexec : (execute config cmd).run.All P) : (commandThread config cmd).All P :=
  Prog.All.bind (handleCommand_all hlog hexec) fun _ => ⟨hlog _ trivial, fun _ => trivial⟩

theorem commandThread_not_spawn (config : Configuration) (cmd : Command) :
    (commandThread config cmd).All fun o => ∀ cmd', o ≠ .spawn cmd' := by
  refine commandThread_all (fun _ => not_spawn_of_logs) ?_
  cases cmd with
  | actuate driverId value => exact execute_actuate_all (by rintro _ ⟨⟩)
  | ignition =>
    exact Procedure.code_all (by rintro _ _ ⟨⟩) .ignition (by rintro _ _ _ ⟨⟩)
      (by rintro _ _ _ _ ⟨⟩)
  | emergencyStop =>
    exact Procedure.code_all (by rintro _ _ ⟨⟩) .emergencyStop (by rintro _ _ _ ⟨⟩)
      (by rintro _ _ _ _ ⟨⟩)

/-- **The threads of a client that will spawn `cmds`**, after the events `t`: its own, which has
the rest of them still to spawn, and one for each command spawned, in order. -/
structure ClientThreads (config : Configuration) (cmds : List Command) (t : Trace) (m : System) :
    Prop where
  reader : ∃ p, m.threads[0]? = some p ∧ p.All (· ≠ .moveTo .preIgnite) ∧
    Spawns p (cmds.drop (m.threads.length - 1))
  spawned : ∀ k p, m.threads[k + 1]? = some p →
    ∃ cmd, cmds[k]? = some cmd ∧ Prog.Steps (commandThread config cmd) (history (k + 1) t) p
  future : ∀ k, m.threads.length ≤ k → history k t = []

/-- What a thread spawns is what it is about to spawn, and then the rest. -/
theorem Spawns.resume {o : Op} {k : o.Ans → Prog Op Op.Ans α} (h : Spawns (.op o k) cmds)
    (a : Option o.Ans) :
    (∃ cmd rest, o = .spawn cmd ∧ cmds = cmd :: rest ∧ Spawns (Prog.resume k a) rest) ∨
      ((∀ cmd, o ≠ .spawn cmd) ∧ Spawns (Prog.resume k a) cmds) := by
  by_cases ho : ∃ cmd, o = .spawn cmd
  · obtain ⟨cmd, rfl⟩ := ho
    obtain ⟨rest, rfl, hk⟩ := h
    refine Or.inl ⟨cmd, rest, rfl, rfl, ?_⟩
    cases a with
    | none => trivial
    | some a => exact hk a
  · have ho' : ∀ cmd, o ≠ .spawn cmd := fun cmd h => ho ⟨cmd, h⟩
    refine Or.inr ⟨ho', ?_⟩
    cases a with
    | none => trivial
    | some a => exact (spawns_op ho').mp h a

theorem fork_of_not_spawn {o : Op} (h : ∀ cmd, o ≠ .spawn cmd) :
    (machine config).fork o = none := by
  cases o with
  | spawn cmd => exact absurd rfl (h cmd)
  | _ => rfl

/-- **Only the client's own thread spawns**, and it spawns the next command. -/
theorem ClientThreads.spawns_next (h : ClientThreads config cmds t m)
    (hs : (machine config).StepTo m e m') (hop : e.call.op = .spawn cmd) :
    e.tid = 0 ∧ cmds[m.threads.length - 1]? = some cmd := by
  obtain ⟨q, hq, -⟩ := hs.self
  rcases Nat.eq_zero_or_eq_succ_pred e.tid with htid | htid
  · obtain ⟨p, hp, -, hsp⟩ := h.reader
    rw [htid] at hq
    obtain rfl := Option.some.inj (hp.symm.trans hq)
    rcases hsp.resume none with ⟨cmd', rest, hop', hdrop, -⟩ | ⟨hno, -⟩
    · obtain rfl := Op.spawn.inj (hop.symm.trans hop')
      refine ⟨htid, ?_⟩
      rw [← Nat.add_zero (m.threads.length - 1), ← List.getElem?_drop, hdrop]
      rfl
    · exact absurd hop (hno cmd)
  · rw [htid] at hq
    obtain ⟨cmd', -, hsteps⟩ := h.spawned _ _ hq
    exact absurd hop ((hsteps.all (commandThread_not_spawn config cmd')).2.1 cmd)

/-- A step that spawns nothing starts no thread. -/
theorem length_of_not_spawn (hs : (machine config).StepTo m e m')
    (hop : ∀ cmd, e.call.op ≠ .spawn cmd) : m'.threads.length = m.threads.length := by
  rw [hs.length, fork_of_not_spawn hop]
  rfl

/-- The client's own thread after a step. -/
theorem ClientThreads.reader_step (h : ClientThreads config cmds t m)
    (hs : (machine config).StepTo m e m') :
    ∃ p, m'.threads[0]? = some p ∧ p.All (· ≠ .moveTo .preIgnite) ∧
      Spawns p (cmds.drop (m'.threads.length - 1)) := by
  obtain ⟨p, hp, hall, hsp⟩ := h.reader
  obtain ⟨q, hq, hq'⟩ := hs.self
  have hlt := hs.tid_lt
  by_cases htid : e.tid = 0
  · rw [htid] at hq hq'
    obtain rfl := Option.some.inj (hp.symm.trans hq)
    refine ⟨_, hq', hall.resume _, ?_⟩
    rcases hsp.resume e.call.ans with ⟨cmd, rest, hop, hdrop, hrest⟩ | ⟨hop, hrest⟩
    · have hlen : m'.threads.length = m.threads.length + 1 := by
        rw [hs.length, hop]
        rfl
      have hlen' : m'.threads.length - 1 = m.threads.length - 1 + 1 := by omega
      rw [hlen', ← List.drop_drop, hdrop]
      exact hrest
    · rw [length_of_not_spawn hs hop]
      exact hrest
  · have hop : ∀ cmd, e.call.op ≠ .spawn cmd := fun cmd hop => htid (h.spawns_next hs hop).1
    refine ⟨p, ?_, hall, ?_⟩
    · rw [hs.other (Ne.symm htid) (by omega), hp]
    · rw [length_of_not_spawn hs hop]
      exact hsp

/-- The spawned threads after a step: they were there, one of them moved, or one was started. -/
theorem ClientThreads.spawned_step (h : ClientThreads config cmds t m)
    (hs : (machine config).StepTo m e m') (k : Nat) (p : Prog Op Op.Ans Unit)
    (hk : m'.threads[k + 1]? = some p) :
    ∃ cmd, cmds[k]? = some cmd ∧
      Prog.Steps (commandThread config cmd) (history (k + 1) (t ++ [e])) p := by
  have hlt := hs.tid_lt
  rcases hs.thread_cases hk with ⟨hne, hk⟩ | ⟨heq, k', hk', rfl⟩ | ⟨hlen, hf⟩
  · rw [history_concat_other t (Ne.symm hne)]
    exact h.spawned k p hk
  · obtain ⟨cmd, hcmd, hsteps⟩ := h.spawned k _ hk'
    refine ⟨cmd, hcmd, ?_⟩
    rw [heq, history_concat_self, ← heq]
    exact hsteps.tail e.call.ans
  · obtain ⟨cmd, hop⟩ : ∃ cmd, e.call.op = .spawn cmd := by
      by_contra hno
      rw [fork_of_not_spawn fun cmd hop => hno ⟨cmd, hop⟩] at hf
      cases hf
    obtain ⟨-, hcmd⟩ := h.spawns_next hs hop
    obtain rfl : m.threads.length - 1 = k := by omega
    rw [hop] at hf
    obtain rfl := Option.some.inj hf
    refine ⟨cmd, hcmd, ?_⟩
    rw [history_concat_other t (by omega), h.future _ (by omega)]
    exact Prog.Steps.refl _

/-- **One step of one thread.** -/
theorem ClientThreads.step (h : ClientThreads config cmds t m)
    (hs : (machine config).StepTo m e m') : ClientThreads config cmds (t ++ [e]) m' := by
  refine ⟨h.reader_step hs, h.spawned_step hs, fun k hk => ?_⟩
  have hlt := hs.tid_lt
  have hlen := hs.length
  rw [history_concat_other t (by omega)]
  exact h.future k (by omega)

/-- The client's own thread logs, sends, writes and spawns. -/
theorem handleClient_all {P : Op → Prop} (hlog : ∀ o, Op.Logs o → P o)
    (hsend : ∀ message, P (.send message)) (hw : ∀ driverId value, P (.write driverId value))
    (hspawn : ∀ cmd, P (.spawn cmd)) (src : Source) :
    (handleClient config profile fromSlice src).run.All P := by
  have hloop : ∀ (fuel : Nat) (src : Source),
      (handleClientLoop config profile fromSlice fuel src).run.All P := by
    intro fuel
    induction fuel with
    | zero => exact fun _ => trivial
    | succ fuel ih =>
      intro src
      unfold handleClientLoop
      obtain ⟨_ | result, src'⟩ := Command.parse profile fromSlice src
      case none => trivial
      case some =>
        refine Prog.All.bind (f := thenRun _)
          (handleMessage_all hlog (fun d v _ => hw d v) fun cmd _ _ => hspawn cmd) fun r => ?_
        rcases r with e | (_ | _)
        case error => trivial
        case ok.false => trivial
        case ok.true => exact ih src'
  refine Prog.All.bind (f := thenRun _) ⟨hsend _, fun a => by cases a <;> trivial⟩ fun r => ?_
  cases r with
  | error e => trivial
  | ok u =>
    refine Prog.All.bind (f := thenRun _) (logUser_all hlog _ _) fun r => ?_
    cases r with
    | error e => trivial
    | ok u => exact hloop (src.length + 1) src

/-- It makes no transition. -/
theorem handleClient_not_move (src : Source) :
    (handleClient config profile fromSlice src).run.All fun o => ∀ newState, o ≠ .moveTo newState :=
  handleClient_all (by rintro _ ho _ rfl; exact ho) (by rintro _ _ ⟨⟩) (by rintro _ _ _ ⟨⟩)
    (by rintro _ _ ⟨⟩) src

/-- **In every run of a client, thread `k + 1` handles the `k`-th command spawned.** -/
theorem client_threads (hrun : Run (machine config) (client config profile fromSlice src shared)
    t m) : ClientThreads config (spawned (decode profile fromSlice src)) t m := by
  induction hrun with
  | refl =>
    refine ⟨⟨_, rfl, (handleClient_not_move src).discard.mono fun _ h => h .preIgnite,
      handleClient_spawns src⟩, ?_,
      fun _ _ => rfl⟩
    intro k p hk
    simp [client] at hk
  | tail _ hs ih => exact ih.step hs

/-! ## 4. The property -/

/-- The thread of the `EmergencyStop` that comes after the commands `before`. -/
def stopThread (before : List Command) : Nat := (spawned before).length + 1

/-- The thread `i` moves the guard to `EStopping`. -/
def StopsAt (i : Nat) (e : Event Op.Ans) : Prop := e.tid = i ∧ moved e.call = some .eStopping

/-- **The order is respected**: after the stop, nothing moves the guard to `PreIgnite`. -/
def OrderRespected (config : Configuration) (s₀ : System) (before : List Command) (t : Trace)
    (s : System) : Prop :=
  ∀ t₁ m e m' t₂, Moment (machine config) s₀ t s t₁ m e m' t₂ → StopsAt (stopThread before) e →
    ∀ e' ∈ t₂, moved e'.call ≠ some .preIgnite

/-- Some thread has the entry of an ignition still ahead. -/
def IgnitionPending (m : System) : Prop :=
  ∃ p ∈ m.threads, ¬ p.All (· ≠ .moveTo .preIgnite)

/-- The stop of the run finds no ignition that has not made its entry. -/
def StopFindsNonePending (config : Configuration) (s₀ : System) (before : List Command)
    (t : Trace) (s : System) : Prop :=
  ∀ t₁ m e m' t₂, Moment (machine config) s₀ t s t₁ m e m' t₂ → StopsAt (stopThread before) e →
    ¬ IgnitionPending m

/-- What is left to spawn once the stop has its thread comes after it. -/
theorem mem_spawned_drop {before after : List Command} {n : Nat} (h : stopThread before ≤ n)
    (hcmd : cmd ∈ (spawned (before ++ .emergencyStop :: after)).drop n) : cmd ∈ after := by
  have hsplit : spawned (before ++ .emergencyStop :: after)
      = (spawned before ++ [.emergencyStop]) ++ spawned after := by
    simp [spawned]
  have hlen : (spawned before ++ [Command.emergencyStop]).length ≤ n := by
    rw [List.length_append]
    exact h
  rw [hsplit, List.drop_append, List.drop_eq_nil_of_le hlen, List.nil_append] at hcmd
  exact List.mem_of_mem_filter (List.mem_of_mem_drop hcmd)

/-- A thread that handles anything but an `Ignition` does not move the guard to `PreIgnite`. -/
theorem commandThread_not_entry (h : cmd ≠ .ignition) :
    (commandThread config cmd).All (· ≠ .moveTo .preIgnite) := by
  refine commandThread_all (by rintro _ ho rfl; exact ho) ?_
  cases cmd with
  | actuate driverId value => exact execute_actuate_all nofun
  | ignition => exact absurd rfl h
  | emergencyStop =>
    refine Procedure.code_all (fun _ => nofun) .emergencyStop (fun X hX => ?_)
      (fun _ _ _ => nofun)
    rintro ⟨⟩
    simp [Procedure.entry] at hX

/-- A command asks for `PreIgnite` once, if at all. -/
theorem commandThread_once (config : Configuration) (cmd : Command) :
    (commandThread config cmd).Once (· = .moveTo .preIgnite) := by
  by_cases hcmd : cmd = .ignition
  · subst hcmd
    have hlog : ∀ o, Op.Logs o → ¬ o = .moveTo .preIgnite := by
      rintro _ ho rfl
      exact ho
    have hcode : (execute config .ignition).run.Once (· = .moveTo .preIgnite) := by
      obtain ⟨k, hk, herr, hok⟩ := Procedure.ignition.code_eq config
      have heq : (execute config .ignition).run = .op (.moveTo .preIgnite) k := hk
      rw [heq]
      refine Or.inl ⟨rfl, fun a => ?_⟩
      match a with
      | .error e => rw [herr]; trivial
      | .ok () => rw [hok]; exact ignition_start_all config
    have hcommand : (handleCommand config .ignition).run.Once (· = .moveTo .preIgnite) := by
      rw [handleCommand_eq]
      refine Prog.Once.after (f := thenRun _) (prologue_all hlog _) fun r => ?_
      cases r with
      | error e => trivial
      | ok u =>
        refine Prog.Once.bind (f := thenRun _) hcode fun r => ?_
        cases r with
        | error e => trivial
        | ok u => exact epilogue_all hlog _
    exact Prog.Once.bind hcommand fun _ => ⟨nofun, fun _ => trivial⟩
  · exact Prog.All.once (commandThread_not_entry hcmd)

/-- **An ignition that has asked for its entry is not pending.** -/
theorem not_pending (hclient : ClientThreads config cmds t m)
    (hasked : ∀ k, cmds[k]? = some .ignition →
      ∃ e ∈ t, e.tid = k + 1 ∧ moved e.call = some .preIgnite) : ¬ IgnitionPending m := by
  rintro ⟨p, hp, hno⟩
  refine hno ?_
  obtain ⟨i, hi⟩ := List.mem_iff_getElem?.mp hp
  cases i with
  | zero =>
    obtain ⟨p', hp', hall, -⟩ := hclient.reader
    obtain rfl := Option.some.inj (hi.symm.trans hp')
    exact hall
  | succ k =>
    obtain ⟨cmd, hcmd, hsteps⟩ := hclient.spawned k p hi
    by_cases h : cmd = .ignition
    · subst h
      obtain ⟨e, he, htid, hm⟩ := hasked k hcmd
      exact hsteps.once (commandThread_once config .ignition)
        ⟨e.call, mem_history.mpr ⟨e, he, htid, rfl⟩, op_of_moved hm⟩
    · exact (hsteps.all (commandThread_not_entry h)).2

/-! ## 5. Runs -/

/-- **No ignition enters once none is pending** and none is left to spawn. -/
theorem no_entry_after {s : System} {t' : Trace} (hclient : ClientThreads config cmds t m)
    (hrest : .ignition ∉ cmds.drop (m.threads.length - 1)) (hpending : ¬ IgnitionPending m)
    (hrun : Run (machine config) m t' s) : ∀ e ∈ t', moved e.call ≠ some .preIgnite := by
  have hthreads : ∀ p ∈ m.threads,
      p.All fun o => o ≠ .moveTo .preIgnite ∧ o ≠ .spawn .ignition := by
    intro p hp
    have hentry : p.All (· ≠ .moveTo .preIgnite) := by
      by_contra hno
      exact hpending ⟨p, hp, hno⟩
    refine Prog.All.and hentry ?_
    obtain ⟨i, hi⟩ := List.mem_iff_getElem?.mp hp
    cases i with
    | zero =>
      obtain ⟨p', hp', -, hsp⟩ := hclient.reader
      obtain rfl := Option.some.inj (hi.symm.trans hp')
      exact hsp.all hrest
    | succ k =>
      obtain ⟨cmd, -, hsteps⟩ := hclient.spawned k p hi
      exact (hsteps.all (commandThread_not_spawn config cmd)).2.mono fun o ho => ho _
  have hfork : ∀ o p, o ≠ .moveTo .preIgnite ∧ o ≠ .spawn .ignition →
      (machine config).fork o = some p →
      p.All fun o => o ≠ .moveTo .preIgnite ∧ o ≠ .spawn .ignition := by
    intro o p ho hp
    cases o with
    | spawn cmd =>
      obtain rfl := Option.some.inj hp
      have hcmd : cmd ≠ .ignition := fun h => ho.2 (congrArg Op.spawn h)
      exact Prog.All.and (commandThread_not_entry hcmd)
        ((commandThread_not_spawn config cmd).mono fun o ho => ho _)
    | _ => cases hp
  exact fun e he hm => ((hrun.all hfork hthreads).1 e he).1 (op_of_moved hm)

/-- An `Ignition` and an `EmergencyStop`, and the end of the connection. -/
def ignitionThenStop : Source :=
  Source.ofBytes (ignitionMessage.bytes ++ emergencyStopMessage.bytes)

/-- One client that sends them, to a stand with empty procedures. -/
def impatientClient : System :=
  client (Configuration.oneDriver [] []) .debug sampleFromSlice ignitionThenStop
    (Shared.new [false])

/-- What a trace shows of an event: the thread, and the state it moves the guard to. -/
def seen (e : Event Op.Ans) : Nat × Option State := (e.tid, moved e.call)

/-- An event seen early in a trace is seen before one that is seen only later. -/
theorem seen_before {t₁ t₂ : Trace} {x : Nat × Option State} {j : Nat}
    (hj : ((t₁ ++ e :: t₂).map seen)[j]? = some x)
    (hlt : ∀ n < ((t₁ ++ e :: t₂).map seen).length,
      ((t₁ ++ e :: t₂).map seen)[n]? = some (seen e) → j < n) : ∃ e' ∈ t₁, seen e' = x := by
  have hj₁ : j < t₁.length := hlt t₁.length (by simp) (by simp)
  rw [List.map_append, List.getElem?_append_left (by simpa using hj₁), List.getElem?_map] at hj
  obtain ⟨e', he', hx⟩ := Option.map_eq_some_iff.mp hj
  exact ⟨e', List.mem_of_getElem? he', hx⟩

/-- **When the dashboard's order is respected.**  The stream decodes to commands with an
`Ignition` before the `EmergencyStop` and none after it, and the guard, the drivers and the logs
are in any state.  In every run whose stop finds no ignition waiting to enter, no ignition enters
after the stop. -/
theorem order_respected_unless_pending (config : Configuration) (profile : Profile)
    (fromSlice : List UInt8 → Option Command) (src : Source) (shared : Shared)
    (before after : List Command)
    (hsrc : decode profile fromSlice src = before ++ .emergencyStop :: after)
    (hafter : .ignition ∉ after) :
    ∀ t s, Run (machine config) (client config profile fromSlice src shared) t s →
      StopFindsNonePending config (client config profile fromSlice src shared) before t s →
      OrderRespected config (client config profile fromSlice src shared) before t s := by
  intro t s _ hcond t₁ m e m' t₂ hd hstop
  have hclient := client_threads hd.before
  rw [hsrc] at hclient
  have hlen : stopThread before ≤ m.threads.length - 1 := by
    have := hd.step.tid_lt
    have := hstop.1
    omega
  have hrest : .ignition ∉ (spawned (before ++ .emergencyStop :: after)).drop
      (m.threads.length - 1) := fun h => hafter (mem_spawned_drop hlen h)
  have hall := no_entry_after hclient hrest (hcond t₁ m e m' t₂ hd hstop)
    (Run.head hd.step hd.after)
  exact fun e' he' => hall e' (List.mem_cons_of_mem _ he')

/-- What is seen when the ignition is the faster one. -/
def fastIgnition : List (Nat × Option State) :=
  [(0, none), (0, none), (0, none), (1, none), (1, none), (1, none), (1, some .preIgnite),
    (0, none), (0, none), (2, none), (2, none), (2, none), (2, some .eStopping), (1, none),
    (1, none)]

/-- There the stop finds that the ignition has entered, and it does not enter again. -/
theorem order_respected_by_slow_stop :
    ∃ t s, Run (machine (Configuration.oneDriver [] [])) impatientClient t s ∧
      t.map seen = fastIgnition ∧
      OrderRespected (Configuration.oneDriver [] []) impatientClient [.ignition] t s := by
  let schedule := [0, 0, 0, 1, 1, 1, 1, 0, 0, 2, 2, 2, 2, 1, 1].map fun i => (i, Env.fine)
  have hrun := run_runSchedule (M := machine (Configuration.oneDriver [] [])) schedule
    impatientClient
  have hseen : ((machine (Configuration.oneDriver [] [])).runSchedule schedule
      impatientClient).1.map seen = fastIgnition := by decide +kernel
  refine ⟨_, _, hrun, hseen, ?_⟩
  have hsrc : decode .debug sampleFromSlice ignitionThenStop
      = [.ignition] ++ .emergencyStop :: [] := by decide +kernel
  refine order_respected_unless_pending (Configuration.oneDriver [] []) .debug sampleFromSlice
    ignitionThenStop (Shared.new [false]) [.ignition] [] hsrc nofun _ _ hrun ?_
  rintro t₁ m e m' t₂ hd ⟨htid, hm⟩
  have hclient := client_threads hd.before
  rw [hsrc] at hclient
  refine not_pending hclient fun k hk => ?_
  -- the ignition is the first command spawned, and it was seen to enter
  obtain rfl : k = 0 := by
    match k with
    | 0 => rfl
    | 1 => cases hk
    | k + 2 => cases hk
  have hsplit := hd.split
  rw [hsplit] at hseen
  have he : seen e = (2, some .eStopping) := Prod.ext htid hm
  obtain ⟨e', he', hx⟩ := seen_before (j := 6) (x := (1, some .preIgnite)) (by rw [hseen]; rfl)
    (by rw [hseen, he]; decide)
  exact ⟨e', he', (Prod.mk.inj hx).1, (Prod.mk.inj hx).2⟩

/-- A trace that shows a stop, and an entry later on. -/
theorem not_respected {s₀ : System} {before : List Command} (hrun : Run (machine config) s₀ t s)
    {k n i : Nat} (hstop : (t.map seen)[k]? = some (stopThread before, some .eStopping))
    (hentry : (t.map seen)[n]? = some (i, some .preIgnite)) (hlt : k < n) :
    ¬ OrderRespected config s₀ before t s := by
  rw [List.getElem?_map] at hstop hentry
  obtain ⟨e, he, hseen⟩ := Option.map_eq_some_iff.mp hstop
  obtain ⟨e', he', hseen'⟩ := Option.map_eq_some_iff.mp hentry
  obtain ⟨hk, rfl⟩ := List.getElem?_eq_some_iff.mp he
  have hsplit : t = t.take k ++ t[k] :: t.drop (k + 1) := by
    rw [List.getElem_cons_drop, List.take_append_drop]
  have hmem : e' ∈ t.drop (k + 1) := by
    refine List.mem_of_getElem? (i := n - (k + 1)) ?_
    rw [List.getElem?_drop, ← he']
    congr 1
    omega
  rw [hsplit] at hrun
  obtain ⟨m, m', hd⟩ := hrun.moment
  rw [← hsplit] at hd
  intro hresp
  exact hresp _ m _ m' _ hd (Prod.mk.inj hseen) e' hmem (Prod.mk.inj hseen').2

/-- The stop is the faster one, and the ignition starts after it. -/
theorem ignition_enters_after_stop :
    decode .debug sampleFromSlice ignitionThenStop = [.ignition] ++ .emergencyStop :: [] ∧
      ∃ t s, Run (machine (Configuration.oneDriver [] [])) impatientClient t s ∧
        ¬ OrderRespected (Configuration.oneDriver [] []) impatientClient [.ignition] t s := by
  refine ⟨by decide +kernel, ?_⟩
  let schedule := [0, 0, 0, 0, 0, 2, 2, 2, 2, 1, 1, 1, 2, 1].map fun i => (i, Env.fine)
  have hseen : ((machine (Configuration.oneDriver [] [])).runSchedule schedule
      impatientClient).1.map seen
        = [(0, none), (0, none), (0, none), (0, none), (0, none), (2, none), (2, none), (2, none),
          (2, some .eStopping), (1, none), (1, none), (1, none), (2, some .standby),
          (1, some .preIgnite)] := by decide +kernel
  have hrun := run_runSchedule (M := machine (Configuration.oneDriver [] [])) schedule
    impatientClient
  refine ⟨_, _, hrun, not_respected hrun (k := 8) (n := 13) (i := 1) ?_ ?_ (by decide)⟩
  · rw [hseen]; rfl
  · rw [hseen]; rfl

end Slonk
