/-
# The command log tells the truth

The commands run side by side, an `Actuate` in the thread that serves the clients and any other in a
thread of its own, and the stops that a sensor asks for write no line at all.  What does a line of the
command log say, then?

* The file has what was written, in order (`cmdLog_of_run`): whole lines, as long as the writer does not
  fail, and these can be read back (`join_of_logText`).
* A line is of a command that an accepted client has sent, and gives the time at which the thread that
  wrote it last looked at the clock.
* "finish" says that all of what the command stands for has been done since that thread requested it, and
  that nothing has failed.

`AuditTrail.lean` has this of each program.  Here the threads of the server are told apart by what they
were started as (`Origin`).  What is said of the closure rests on its accept loop alone
(`scopeClosure_obeys`), and it is said twice: of the lines it writes, and of the commands it is concerned
with, which are those that clients have sent (`asking`).
-/
import Slonk.AlarmResponse
import Slonk.AuditTrail
import Slonk.Identifiers

namespace Slonk

open Concurrency

/-! ## 1. The closure -/

section Closure

variable {Γ : Type} {T : Protocol Act Act.Ans Γ} {config : Configuration} {profile : Profile}
  {fromSlice : List UInt8 → Option Command} {turns : Nat}

/-- The protocol restricts only what has to do with a command. -/
def AboutCommands (T : Protocol Act Act.Ans Γ) : Prop := ∀ γ a, Act.Unconcerned a → T.permits γ a

theorem log_unconcerned (level : LogLevel) (message : UserMessage) :
    (Routine.log [] level message).run.All Act.Unconcerned :=
  (keeps_log (R := fun _ _ => True) (A := fun _ _ => True) (fun _ => unconcerned_of_common) [] level
    message none_held).all

theorem log_noPanic (guards : List Lock) (level : LogLevel) (message : UserMessage) :
    (Routine.log guards level message).run.NoPanic := by
  refine Prog.NoPanic.bind (fun poisoned => Prog.NoPanic.bind ?_ fun _ _ => trivial) fun _ => trivial
  cases poisoned with
  | true => exact fun x => nomatch x
  | false => exact fun _ => trivial

/-- A part of the accept loop that has nothing to do with a command, and does not panic. -/
theorem AboutCommands.obeys {α : Type} {p : Prog Act Act.Ans α} (hT : AboutCommands T)
    (hp : p.All Act.Unconcerned) (hn : p.NoPanic) : p.Obeys T :=
  hp.obeys hT fun _ h => absurd hn h

/-- **The accept loop**, when a client may do what it does once it has been accepted. -/
theorem accepting_obeys {I : Source → Γ → Prop} (hT : AboutCommands T)
    (haccept : ∀ γ src, I src (T.next γ ⟨.accept, some (.ok src)⟩))
    (hkeep : ∀ src γ c, I src γ → I src (T.next γ c))
    (hserve : ∀ src γ, I src γ → (serve config profile fromSlice src).run.Follows T
      (fun _ _ => True) γ fun _ _ => True) :
    (accepting config profile fromSlice turns).run.Obeys T := by
  have hstep : ∀ {α β : Type} {src : Source} {γ : Γ} {p : Routine RunError α}
      {f : α → Routine RunError β}, p.run.All Act.Unconcerned → p.run.NoPanic → I src γ →
      (∀ a γ', I src γ' → (f a).run.Follows T (fun _ _ => True) γ' fun _ _ => True) →
      (p >>= f).run.Follows T (fun _ _ => True) γ fun _ _ => True := by
    intro α β src γ p f hp hn hγ hf
    exact Fallible.follows_bind (hp.follows_invariant (fun γ a ha _ => hT γ a ha)
      (fun γ a x _ h => hkeep src γ ⟨a, some x⟩ h) (fun _ _ h => absurd hn h) hγ) hf
      fun _ _ _ => trivial
  refine Fallible.obeys_loop (fun _ γ => ?_) turns ()
  refine ⟨hT γ .accept trivial, ?_⟩
  rintro (e | src) -
  · exact Fallible.obeys_bind (hT.obeys (log_unconcerned _ _) (log_noPanic _ _ _)) (fun _ => .ret _) _
  · have hI := haccept γ src
    refine hstep ⟨trivial, fun _ => trivial⟩ (fun _ => trivial) hI fun address γ' hI => ?_
    refine hstep (log_unconcerned _ _) (log_noPanic _ _ _) hI fun _ γ' hI => ?_
    refine hstep ⟨trivial, fun _ => trivial⟩ (fun _ => trivial) hI fun _ γ' hI => ?_
    refine Fallible.follows_bind (?_ : (install config profile fromSlice src).run.Follows T
      (fun _ _ => True) γ' fun _ _ => True) (fun _ _ _ => trivial) fun _ _ _ => trivial
    refine hstep ?_ (fun _ _ _ => trivial) hI fun _ γ' hI => ?_
    · exact .guarded trivial (fun _ => ⟨trivial, fun _ => trivial⟩) trivial
    · exact hstep (log_unconcerned _ _) (log_noPanic _ _ _) hI fun _ γ' hI => hserve src γ' hI

/-- What the operations of the controller answer, in the server. -/
def serverAnswers (A : (a : Act) → a.Ans → Prop) : (o : ServerOp) → o.Ans → Prop
  | .act a, x => A a x
  | _, _ => True

theorem serverAnswers_true : serverAnswers (fun _ _ => True) = fun _ _ => True := by
  funext o x
  cases o <;> rfl

/-- An event of which what it answers on the controller is known. -/
theorem serverAnswers_of_acts {A : (a : Act) → a.Ans → Prop} {e : Event ServerOp.Ans}
    (h : ∀ a x, e.call = ⟨.act a, some x⟩ → A a x) :
    ∀ x, e.call.ans = some x → serverAnswers A e.call.op x := by
  obtain ⟨tid, ⟨o, _ | x⟩⟩ := e
  · rintro x ⟨⟩
  · intro x' hx
    obtain rfl := Option.some.inj hx
    cases o with
    | act a => exact h a x rfl
    | _ => trivial

/-- A program of the controller, in the server. -/
theorem ofActs_follows {α : Type} {A : (a : Act) → a.Ans → Prop} {p : Prog Act Act.Ans α} {γ : Γ}
    {Q : α → Γ → Prop} (hp : p.Follows T A γ Q) :
    (ofActs p).Follows (T.through serverAct) (serverAnswers A) γ Q := by
  have hone : ∀ a γ, T.permits γ a → (.op (.act a) .ret : Prog ServerOp ServerOp.Ans a.Ans).Follows
      (T.through serverAct) (serverAnswers A) γ fun x γ' => A a x ∧ γ' = T.next γ ⟨a, some x⟩ := by
    intro a γ ha
    refine ⟨?_, fun _ hx => ⟨hx, rfl⟩⟩
    intro x c hc
    obtain rfl := Option.some.inj hc
    exact ha
  have haborts : ∀ γ, T.aborts γ → (T.through serverAct).aborts γ := fun _ h => h
  exact hp.expand haborts hone

theorem ofActs_obeys {α : Type} {p : Prog Act Act.Ans α} (hp : p.Obeys T) :
    (ofActs p).Obeys (T.through serverAct) := by
  intro γ
  rw [← serverAnswers_true]
  exact ofActs_follows (hp γ)

/-- **The closure**, when its logs and its accept loop follow the protocol. -/
theorem scopeClosure_follows {A : (a : Act) → a.Ans → Prop} {I : Γ → Prop}
    {Q : Except RunError (Unit ⊕ Empty) → Γ → Prop}
    (hlog : ∀ level message γ, I γ →
      (Routine.log [] level message).run.Follows T A γ fun _ γ' => I γ')
    (haccepting : ∀ γ, I γ → (accepting config profile fromSlice turns).run.Follows T A γ Q)
    (herr : ∀ e γ, I γ → Q (.error e) γ) {γ : Γ} (hγ : I γ) :
    (scopeClosure config profile fromSlice turns).run.Follows (T.through serverAct) (serverAnswers A)
      γ Q := by
  have hstep : ∀ {α β : Type} {γ : Γ} {p : Serving α} {f : α → Serving β}
      {Q : Except RunError β → Γ → Prop}, (∀ e γ, I γ → Q (.error e) γ) →
      p.run.Follows (T.through serverAct) (serverAnswers A) γ (fun _ γ' => I γ') →
      (∀ a γ', I γ' → (f a).run.Follows (T.through serverAct) (serverAnswers A) γ' Q) →
      (p >>= f).run.Follows (T.through serverAct) (serverAnswers A) γ Q :=
    fun herr hp hf => Fallible.follows_bind hp hf herr
  have hlog' : ∀ level message γ, I γ → (Serving.log level message).run.Follows (T.through serverAct)
      (serverAnswers A) γ fun _ γ' => I γ' :=
    fun level message γ hγ => ofActs_follows (hlog level message γ hγ)
  have hsilent : ∀ {α : Type} {o : ServerOp} (f : o.Ans → Except RunError α) (γ : Γ),
      (∀ x, serverAct ⟨o, x⟩ = none) → I γ → (Fallible.attempt o f : Serving α).run.Follows
        (T.through serverAct) (serverAnswers A) γ fun _ γ' => I γ' := by
    intro α o f γ h hγ
    refine ⟨Protocol.permits_silent h, fun x _ => ?_⟩
    rw [Protocol.next_silent (h _)]
    exact hγ
  have hspawn : ∀ thread γ, I γ → (Serving.spawn thread).run.Follows (T.through serverAct)
      (serverAnswers A) γ fun _ γ' => I γ' := fun thread γ hγ => hsilent _ γ (fun _ => rfl) hγ
  have hspawns : (spawnListeners config turns).run.Follows (T.through serverAct) (serverAnswers A) γ
      fun _ γ' => I γ' := by
    refine hstep (fun _ _ h => h) ?_ fun _ γ' hγ' =>
      hstep (fun _ _ h => h) (hspawn _ γ' hγ') fun _ γ' hγ' => hspawn _ γ' hγ'
    generalize config.sensorGroups.zipIdx = groups
    induction groups generalizing γ with
    | nil => exact hγ
    | cons group groups ih => exact hstep (fun _ _ h => h) (hspawn _ γ hγ) fun _ γ' hγ' => ih hγ'
  refine hstep herr hspawns fun _ γ hγ => ?_
  refine hstep herr (hlog' _ _ γ hγ) fun _ γ hγ => hstep herr (hlog' _ _ γ hγ) fun _ γ hγ => ?_
  refine hstep herr (hsilent _ γ (fun _ => rfl) hγ) fun _ γ hγ => ?_
  refine hstep herr (hsilent _ γ (fun _ => rfl) hγ) fun address γ hγ => ?_
  refine hstep herr (hlog' _ _ γ hγ) fun _ γ hγ => hstep herr (hlog' _ _ γ hγ) fun _ γ hγ => ?_
  exact ofActs_follows (haccepting γ hγ)

/-- It does to commands what its accept loop does. -/
theorem scopeClosure_obeys (hT : AboutCommands T)
    (haccepting : (accepting config profile fromSlice turns).run.Obeys T) :
    (scopeClosure config profile fromSlice turns).run.Obeys (T.through serverAct) := by
  intro γ
  rw [← serverAnswers_true]
  refine scopeClosure_follows (I := fun _ => True) ?_ (fun γ _ => haccepting γ) (fun _ _ _ => trivial)
    trivial
  intro level message γ _
  exact hT.obeys (log_unconcerned level message) (log_noPanic [] level message) γ

/-- **The listeners** have nothing to do with commands, and only monitors start stops. -/
theorem listener_unconcerned (F : Type) [F64 F] {thread : Thread}
    (h : thread ∈ listeners config turns) :
    (thread.program F config profile fromSlice).All fun a => a.Unconcerned ∨ (a = .spawnStop ∧
      ∃ groupId logFiles rounds, thread = .sensorListen groupId logFiles rounds) := by
  refine (thread.program_all F config profile fromSlice).mono ?_
  rintro a (ha | ha)
  · exact Or.inl (unconcerned_of_common ha)
  · have hsenses : ∀ {groupId : UInt8} {logFiles : List LogFile}, a.Senses groupId logFiles →
        a.Unconcerned ∨ a = .spawnStop := by
      intro groupId logFiles ha
      cases a with
      | op o =>
        cases o with
        | spawn cmd => exact ha.elim
        | logCommand time tag cmd => exact ha.elim
        | moveTo newState => exact ha.elim
        | write driverId value => exact ha.elim
        | _ => exact Or.inl trivial
      | spawnStop => exact Or.inr rfl
      | _ => exact Or.inl trivial
    have hreports : a.Reports → a.Unconcerned := by
      intro ha
      cases a with
      | op o =>
        cases o with
        | spawn cmd => exact ha
        | logCommand time tag cmd => exact ha
        | moveTo newState => exact ha
        | write driverId value => exact ha
        | _ => trivial
      | spawnStop => exact ha
      | _ => trivial
    rcases List.mem_append.mp h with h | h
    · obtain ⟨group, -, rfl⟩ := List.mem_map.mp h
      exact (hsenses ha).imp_right fun hstop => ⟨hstop, _, _, _, rfl⟩
    · simp only [List.mem_cons, List.not_mem_nil, or_false] at h
      rcases h with rfl | rfl
      · exact Or.inl (hreports ha)
      · obtain ⟨value, rfl⟩ := ha
        exact Or.inl trivial

end Closure

/-! ## 2. What clients have sent -/

/-- The stream of a client that has been accepted. -/
def clientOf : Call Act.Ans → Option Source
  | ⟨.accept, some (.ok src)⟩ => some src
  | _ => none

/-- **What has to do with a command** has to do with one that an accepted client has sent; and no stop
is started as the monitors start theirs. -/
def asking (profile : Profile) (fromSlice : List UInt8 → Option Command) :
    Protocol Act Act.Ans (List Source) where
  permits γ a := a ≠ .spawnStop ∧
    ∀ cmd, a.Concerns cmd → ∃ src ∈ γ, cmd ∈ decode profile fromSlice src
  aborts _ := True
  next γ c := γ ++ (clientOf c).toList

section Clients

variable {config : Configuration} {profile : Profile} {fromSlice : List UInt8 → Option Command}
  {turns : Nat}

/-- A protocol whose state is the clients that have been accepted. -/
theorem clients_after {T : Protocol Act Act.Ans (List Source)}
    (hT : ∀ γ c, T.next γ c = γ ++ (clientOf c).toList) (h : List (Call Act.Ans)) :
    ∀ γ : List Source, T.after γ h = γ ++ h.filterMap clientOf := by
  induction h with
  | nil => simp
  | cons c h ih =>
    intro γ
    rw [Protocol.after_cons, ih, hT]
    cases hc : clientOf c <;> simp [hc]

/-- A client that has been accepted was accepted by some event. -/
theorem mem_clients {i : Nat} {t : List (Event ServerOp.Ans)} {src : Source}
    (h : src ∈ (actsOf i t).filterMap clientOf) : ∃ e ∈ t, e.call = ⟨.act .accept, some (.ok src)⟩ := by
  obtain ⟨c, hc, hclient⟩ := List.mem_filterMap.mp h
  obtain ⟨call, hcall, hact⟩ := List.mem_filterMap.mp hc
  obtain ⟨e, he, -, rfl⟩ := mem_history.mp hcall
  refine ⟨e, he, ?_⟩
  rw [serverAct_eq_some hact]
  unfold clientOf at hclient
  split at hclient
  · rw [Option.some.inj hclient]
  · cases hclient

theorem concerns_of_permits {handles delegates : Command → Prop} {γ : Hand} {a : Act} {cmd : Command}
    (h : (audited config handles delegates).permits γ a) (ha : a.Concerns cmd) :
    handles cmd ∨ delegates cmd := by
  cases a with
  | op o =>
    have ho : (auditing config handles delegates).permits γ o := h none ⟨o, none⟩ rfl
    cases o with
    | spawn cmd' =>
      obtain rfl : cmd' = cmd := ha
      exact Or.inr ho
    | logCommand time tag cmd' =>
      obtain rfl : cmd' = cmd := ha
      cases tag with
      | request => exact Or.inl ho.1
      | finish => exact Or.inl ho.1
    | _ => exact ha.elim
  | _ => exact ha.elim

theorem serve_obeys (src : Source) : (serve config profile fromSlice src).run.Obeys (audited config
    (fun cmd => cmd.Inline ∧ cmd ∈ decode profile fromSlice src)
    (· ∈ decode profile fromSlice src)) :=
  .bind (expand_obeys (handleClient_obeys profile fromSlice src)) fun _ => .ret _

theorem serve_concerns (src : Source) : (serve config profile fromSlice src).run.All
    fun a => ∀ cmd, a.Concerns cmd → cmd ∈ decode profile fromSlice src := by
  refine (serve_obeys src ⟨none, none⟩).all fun γ a ha cmd hcmd => ?_
  rcases concerns_of_permits ha hcmd with h | h
  · exact h.2
  · exact h

/-- What is made of operations under their locks starts no such stop. -/
theorem expand_not_spawnStop {α : Type} (p : Prog Op Op.Ans α) :
    (p.expand critical).All (· ≠ .spawnStop) :=
  (Prog.All.of_forall (P := fun _ => True) (fun _ => trivial) p).expand
    fun _ _ => critical_all (by rintro _ ha rfl; exact ha) (by simp)

theorem serve_not_spawnStop (src : Source) :
    (serve config profile fromSlice src).run.All (· ≠ .spawnStop) :=
  (expand_not_spawnStop _).bind fun _ => trivial

/-- **The thread of the clients** has asked only for what they have sent. -/
theorem closure_asking : (scopeClosure config profile fromSlice turns).run.Obeys
    ((asking profile fromSlice).through serverAct) := by
  have hT : AboutCommands (asking profile fromSlice) := fun _ _ ha =>
    ⟨by rintro rfl; exact ha, fun cmd hcmd => absurd hcmd (ha.not_concerns cmd)⟩
  refine scopeClosure_obeys hT (accepting_obeys (I := fun src γ => src ∈ γ) hT ?_ ?_ ?_)
  · exact fun γ src => List.mem_append_right γ (List.mem_singleton_self src)
  · exact fun src γ c h => List.mem_append_left _ h
  · intro src γ hsrc
    refine (((serve_not_spawnStop src).and (serve_concerns src)).follows_invariant
      (I := fun γ => src ∈ γ) ?_ (fun γ a x _ h => List.mem_append_left _ h) (fun _ _ _ => trivial)
      hsrc).mono fun _ _ _ => trivial
    exact fun γ a ha h => ⟨ha.1, fun cmd hcmd => ⟨src, h, ha.2 cmd hcmd⟩⟩

/-- **And it logs what is true**, of the commands it handles itself. -/
theorem closure_audited : (scopeClosure config profile fromSlice turns).run.Obeys
    ((audited config Command.Inline fun _ => True).through serverAct) := by
  have hT : AboutCommands (audited config Command.Inline fun _ => True) :=
    fun γ _ ha => audited_permits ha γ
  refine scopeClosure_obeys hT (accepting_obeys (I := fun _ _ => True) hT (fun _ _ => trivial)
    (fun _ _ _ _ => trivial) fun src γ _ => ?_)
  refine (serve_obeys src γ).weaken ?_ (fun _ h => h) rfl
  intro γ a ha x c hc
  have ho := ha x c hc
  obtain ⟨o, y⟩ := c
  cases o with
  | spawn cmd => trivial
  | logCommand time tag cmd =>
    cases tag with
    | request => exact ⟨ho.1.1, ho.2⟩
    | finish => exact ⟨ho.1.1, ho.2⟩
  | _ => trivial

end Clients

/-! ## 3. The threads of the server -/

/-- What thread `i` was started as, in this run: it is the closure, a command for which a thread was
started, a stop that a monitor has started, or a listener. -/
inductive Origin (F : Type) [F64 F] (config : Configuration) (profile : Profile)
    (fromSlice : List UInt8 → Option Command) (turns : Nat) (lines : List Bool)
    (t : List (Event ServerOp.Ans)) (i : Nat) : Prog ServerOp ServerOp.Ans Unit → Prop
  | closure (first : i = 0) : Origin F config profile fromSlice turns lines t i
      (scopeClosure config profile fromSlice turns).run.discard
  | command (cmd : Command) (t₁ : List (Event ServerOp.Ans)) (e : Event ServerOp.Ans)
      (started : StartedBy (server F config profile fromSlice)
        (serverOf config profile fromSlice turns lines) t i t₁ e)
      (op : e.call.op = .act (.op (.spawn cmd))) :
      Origin F config profile fromSlice turns lines t i (ofActs (commandRoutine config cmd))
  | stop (t₁ : List (Event ServerOp.Ans)) (e : Event ServerOp.Ans)
      (started : StartedBy (server F config profile fromSlice)
        (serverOf config profile fromSlice turns lines) t i t₁ e)
      (op : e.call.op = .act .spawnStop) :
      Origin F config profile fromSlice turns lines t i (ofActs (stopRoutine config))
  | listener (thread : Thread) (t₁ : List (Event ServerOp.Ans)) (e : Event ServerOp.Ans)
      (started : StartedBy (server F config profile fromSlice)
        (serverOf config profile fromSlice turns lines) t i t₁ e)
      (op : e.call.op = .spawnListener thread) (mem : thread ∈ listeners config turns) :
      Origin F config profile fromSlice turns lines t i
        (ofActs (thread.program F config profile fromSlice))

section Server

variable {F : Type} [F64 F] {config : Configuration} {profile : Profile}
  {fromSlice : List UInt8 → Option Command} {turns : Nat} {lines : List Bool}
  {t : List (Event ServerOp.Ans)} {s : Sys ServerOp ServerOp.Ans Controller} {i : Nat}

/-- **There are no other threads.** -/
theorem origin_of_run (hrun : Run (server F config profile fromSlice)
    (serverOf config profile fromSlice turns lines) t s) {q : Prog ServerOp ServerOp.Ans Unit}
    (hq : s.threads[i]? = some q) :
    ∃ p, Origin F config profile fromSlice turns lines t i p ∧ Prog.Steps p (history i t) q := by
  obtain ⟨p, hsteps, ho | ⟨t₁, e, hstarted, hf⟩⟩ := hrun.started hq
  · have hi : i = 0 := Nat.lt_one_iff.mp (List.getElem?_eq_some_iff.mp ho).1
    subst hi
    obtain rfl := Option.some.inj ho
    exact ⟨_, .closure rfl, hsteps⟩
  · refine ⟨p, ?_, hsteps⟩
    obtain ⟨tid, ⟨o, x⟩⟩ := e
    cases o with
    | act a =>
      obtain ⟨q, hq, rfl⟩ := Option.map_eq_some_iff.mp hf
      cases a with
      | op o =>
        cases o with
        | spawn cmd =>
          obtain rfl := Option.some.inj hq
          exact .command cmd _ _ hstarted rfl
        | _ => cases hq
      | spawnStop =>
        obtain rfl := Option.some.inj hq
        exact .stop _ _ hstarted rfl
      | _ => cases hq
    | spawnListener thread =>
      obtain rfl := Option.some.inj hf
      refine .listener thread _ _ hstarted rfl ((listeners_of_run hrun).mem ?_)
      exact List.mem_filterMap.mpr ⟨_, hstarted.mem, rfl⟩
    | bind => cases hf
    | localAddr => cases hf

end Server

/-! ## 4. The log -/

/-- What a call has written to the command log. -/
def entryOf : Call ServerOp.Ans → Option LogEntry
  | ⟨.act (.op (.logCommand time tag cmd)), some (.ok ())⟩ => some ⟨time, tag, cmd⟩
  | _ => none

/-- The text stands in the file. -/
def StandsIn (file text : String) : Prop := ∃ before after, file = before ++ text ++ after

/-- What a call has put in its file: the line, or, if the writer failed, some of it. -/
def LogText : Call ServerOp.Ans → String → Prop
  | ⟨.act (.op (.logCommand time tag cmd)), some (.ok ())⟩, text => text = commandLine time tag cmd
  | ⟨.act (.op (.logCommand time tag cmd)), some (.error .io)⟩, text =>
    ∃ n, text = String.ofList ((commandLine time tag cmd).toList.take n)
  | _, text => text = ""

/-- The writer of the command log has failed. -/
def FailsLog (c : Call ServerOp.Ans) : Prop :=
  ∃ time tag cmd, c = ⟨.act (.op (.logCommand time tag cmd)), some (.error .io)⟩

/-- **If the writer has not failed**, the lines are there as a whole. -/
theorem join_of_logText {calls : List (Call ServerOp.Ans)} {texts : List String}
    (h : List.Forall₂ LogText calls texts) (hwriter : ∀ c ∈ calls, ¬ FailsLog c) :
    String.join texts = String.join ((calls.filterMap entryOf).map LogEntry.line) := by
  induction h with
  | nil => rfl
  | @cons c text calls texts hc _ ih =>
    rw [List.forall_mem_cons] at hwriter
    have hrest := ih hwriter.2
    rw [String.join_cons, hrest]
    unfold LogText at hc
    split at hc
    · subst hc
      rename_i time tag cmd
      rw [List.filterMap_cons_some (f := entryOf) (b := ⟨time, tag, cmd⟩) rfl, List.map_cons,
        String.join_cons]
      rfl
    · exact absurd ⟨_, _, _, rfl⟩ hwriter.1
    · subst hc
      rename_i hok _
      have hnone : entryOf c = none := by
        unfold entryOf
        split
        · exact absurd rfl (hok _ _ _)
        · rfl
      rw [List.filterMap_cons_none hnone, String.empty_append]

/-- Only `logCommand` changes the command log. -/
theorem exec_cmdLog {o : Op} (h : ∀ time tag cmd, o ≠ .logCommand time tag cmd) (env : Env)
    (shared : Shared) : (exec o env shared).2.cmdLog = shared.cmdLog := by
  cases o with
  | logCommand time tag cmd => exact absurd rfl (h time tag cmd)
  | write driverId value =>
    simp only [exec]
    split
    · rfl
    · split <;> rfl
  | userLog level message =>
    simp only [exec]
    split
    · rfl
    · split <;> rfl
  | _ => rfl

/-- **The log grows by what is written.** -/
theorem cmdLog_exec (o : ServerOp) (w : ServerWorld) (c : Controller) :
    ∃ text, (o.exec w c).2.shared.cmdLog.val = c.shared.cmdLog.val ++ text ∧
      LogText ⟨o, (o.exec w c).1⟩ text := by
  have hsame : ∀ {a : Act}, (∀ x, LogText ⟨.act a, x⟩ "") →
      (a.exec w.toWorld c).2.shared.cmdLog.val = c.shared.cmdLog.val →
      ∃ text, (a.exec w.toWorld c).2.shared.cmdLog.val = c.shared.cmdLog.val ++ text ∧
        LogText ⟨.act a, (a.exec w.toWorld c).1⟩ text :=
    fun hlogged hlog => ⟨"", by rw [hlog, String.append_empty], hlogged _⟩
  cases o with
  | act a =>
    cases a with
    | op o =>
      cases o with
      | logCommand time tag cmd =>
        simp only [ServerOp.exec, Act.exec, exec]
        split
        · exact ⟨"", by simp, rfl⟩
        · split
          · exact ⟨_, rfl, w.written, rfl⟩
          · exact ⟨_, rfl, rfl⟩
      | _ => exact hsame (fun _ => rfl) (congrArg Locked.val (exec_cmdLog (by simp) _ _))
    | unwind guards =>
      refine hsame (fun _ => rfl) (Controller.foldl_poison (f := fun c => c.shared.cmdLog.val) ?_ _ _)
      intro c l
      cases l <;> rfl
    | readLine driverIdx =>
      refine hsame (fun _ => rfl) ?_
      simp only [Act.exec]
      split <;> rfl
    | heartbeat value =>
      refine hsame (fun _ => rfl) ?_
      simp only [Act.exec]
      split <;> rfl
    | _ => exact hsame (fun _ => rfl) rfl
  | _ => exact ⟨"", by simp [ServerOp.exec], rfl⟩

section Truth

variable {config : Configuration} {handles delegates : Command → Prop} {γ : Hand}
  {c : Call Op.Ans} {h : List (Call Op.Ans)} {time : Nat} {cmd : Command} {deeds : List Deed}

/-- What the clock was before a call. -/
theorem Hand.next_clock (hγ : (γ.next c).clock = some time) :
    c = ⟨.now, some time⟩ ∨ (γ.clock = some time ∧ ∀ time', c ≠ ⟨.now, some time'⟩) := by
  obtain ⟨o, x⟩ := c
  cases o with
  | now =>
    cases x with
    | none => exact Or.inr ⟨hγ, by rintro _ ⟨⟩⟩
    | some time' => exact Or.inl (by rw [← Option.some.inj hγ])
  | logCommand time' tag cmd =>
    refine Or.inr ⟨?_, by rintro _ ⟨⟩⟩
    obtain _ | (_ | _) | _ := x <;> cases tag <;> exact hγ
  | moveTo newState =>
    refine Or.inr ⟨?_, by rintro _ ⟨⟩⟩
    obtain _ | (e | u) := x <;> exact hγ
  | write driverId value =>
    refine Or.inr ⟨?_, by rintro _ ⟨⟩⟩
    obtain _ | (e | u) := x <;> exact hγ
  | _ => exact Or.inr ⟨hγ, by rintro _ ⟨⟩⟩

/-- It has been read, and has not been read since. -/
theorem reading_of_clock : ∀ {h : List (Call Op.Ans)},
    (h.foldl Hand.next ⟨none, none⟩).clock = some time →
    ∃ before after, h = before ++ ⟨.now, some time⟩ :: after ∧
      ∀ c ∈ after, ∀ time', c ≠ ⟨.now, some time'⟩ := by
  intro h
  induction h using List.reverseRecOn with
  | nil => rintro ⟨⟩
  | append_singleton h c ih =>
    rw [List.foldl_concat]
    intro hγ
    rcases Hand.next_clock hγ with rfl | ⟨hclock, hc⟩
    · exact ⟨h, [], rfl, by simp⟩
    · obtain ⟨before, after, rfl, hafter⟩ := ih hclock
      refine ⟨before, after ++ [c], by simp, ?_⟩
      simpa [or_imp, forall_and] using ⟨hafter, hc⟩

/-- What was in hand before a call. -/
theorem Hand.next_command (hγ : (γ.next c).command = some (cmd, deeds)) :
    (∃ time answer, c = ⟨.logCommand time .request cmd, some answer⟩ ∧ answer ≠ .error .poisoned ∧
        deeds = []) ∨
      ∃ before, γ.command = some (cmd, before) ∧ deeds = before ++ (deed c).toList ∧
        (∀ time tag cmd', c.op ≠ .logCommand time tag cmd') ∧ (c.op.Acts → deed c ≠ none) := by
  have hdid : ∀ {d : Deed}, (γ.did d).command = some (cmd, deeds) →
      ∃ before, γ.command = some (cmd, before) ∧ deeds = before ++ [d] := by
    intro d h
    obtain ⟨⟨cmd', before⟩, hbefore, hpair⟩ := Option.map_eq_some_iff.mp h
    obtain ⟨rfl, rfl⟩ := Prod.mk.inj hpair
    exact ⟨before, hbefore, rfl⟩
  obtain ⟨o, x⟩ := c
  cases o with
  | logCommand time tag cmd' =>
    obtain _ | (_ | _) | _ := x <;> cases tag <;> try cases hγ
    · exact Or.inl ⟨time, _, rfl, by simp, rfl⟩
    · exact Or.inl ⟨time, _, rfl, by simp, rfl⟩
  | moveTo newState =>
    obtain _ | (e | u) := x
    · cases hγ
    · cases hγ
    · obtain ⟨before, hbefore, rfl⟩ := hdid hγ
      exact Or.inr ⟨before, hbefore, rfl, by simp, by simp [deed]⟩
  | write driverId value =>
    obtain _ | (e | u) := x
    · cases hγ
    · cases hγ
    · obtain ⟨before, hbefore, rfl⟩ := hdid hγ
      exact Or.inr ⟨before, hbefore, rfl, by simp, by simp [deed]⟩
  | now =>
    refine Or.inr ⟨deeds, ?_, (List.append_nil deeds).symm, by simp, by simp [Op.Acts]⟩
    cases x <;> exact hγ
  | _ => exact Or.inr ⟨deeds, hγ, (List.append_nil deeds).symm, by simp, by simp [Op.Acts]⟩

/-- Since the command was requested, all of this has been done, and nothing has failed.  The request has
been logged, or the writer has failed. -/
def DoneSince (cmd : Command) (deeds : List Deed) (h : List (Call Op.Ans)) : Prop :=
  ∃ before time answer during, h = before ++ ⟨.logCommand time .request cmd, some answer⟩ :: during ∧
    answer ≠ .error .poisoned ∧ during.filterMap deed = deeds ∧
    ∀ c ∈ during, (∀ time tag cmd', c.op ≠ .logCommand time tag cmd') ∧ (c.op.Acts → deed c ≠ none)

/-- What is in hand has been requested since, or was in hand from the beginning. -/
theorem doneSince_or : ∀ {h : List (Call Op.Ans)} {deeds : List Deed},
    (h.foldl Hand.next γ).command = some (cmd, deeds) → DoneSince cmd deeds h ∨
      ∃ done, γ.command = some (cmd, done) ∧ deeds = done ++ h.filterMap deed := by
  intro h
  induction h using List.reverseRecOn with
  | nil => exact fun hγ => Or.inr ⟨_, hγ, by simp⟩
  | append_singleton h c ih =>
    rw [List.foldl_concat]
    intro deeds hγ
    rcases Hand.next_command hγ with
      ⟨time, answer, rfl, hanswer, rfl⟩ | ⟨before, hbefore, rfl, hlog, hacts⟩
    · exact Or.inl ⟨h, time, answer, [], rfl, hanswer, rfl, by simp⟩
    · have hdeed : ∀ l : List (Call Op.Ans),
          (l ++ [c]).filterMap deed = l.filterMap deed ++ (deed c).toList := by
        intro l
        rw [List.filterMap_append]
        cases hd : deed c <;> simp [hd]
      rcases ih hbefore with
        ⟨before, time, answer, during, rfl, hanswer, rfl, hduring⟩ | ⟨done, hdone, rfl⟩
      · refine Or.inl ⟨before, time, answer, during ++ [c], by simp, hanswer, hdeed during, ?_⟩
        rw [List.forall_mem_append]
        exact ⟨hduring, by simpa using ⟨hlog, hacts⟩⟩
      · exact Or.inr ⟨done, hdone, by rw [hdeed, List.append_assoc]⟩

theorem doneSince_of_command {h : List (Call Op.Ans)} {deeds : List Deed}
    (hγ : (h.foldl Hand.next ⟨none, none⟩).command = some (cmd, deeds)) : DoneSince cmd deeds h := by
  rcases doneSince_or hγ with hdone | ⟨done, hnone, -⟩
  · exact hdone
  · cases hnone

end Truth

/-! ## 5. Runs -/

/-- A client that has been accepted has sent the command. -/
def Sent (profile : Profile) (fromSlice : List UInt8 → Option Command)
    (t : List (Event ServerOp.Ans)) (cmd : Command) : Prop :=
  ∃ e ∈ t, ∃ src, e.call = ⟨.act .accept, some (.ok src)⟩ ∧ cmd ∈ decode profile fromSlice src

/-- Thread `i` executes the command: it serves the clients, or was started for the command. -/
def Executes (F : Type) [F64 F] (config : Configuration) (profile : Profile)
    (fromSlice : List UInt8 → Option Command) (turns : Nat) (lines : List Bool)
    (t : List (Event ServerOp.Ans)) (i : Nat) (cmd : Command) : Prop :=
  (cmd.Inline ∧ i = 0) ∨ ∃ t₁ e, StartedBy (server F config profile fromSlice)
    (serverOf config profile fromSlice turns lines) t i t₁ e ∧ e.call.op = .act (.op (.spawn cmd))

/-- **A line is true** where thread `i` writes it after these events: a client has sent the command, and
the thread serves the clients or was started for the command; the time is that at which it has last
looked at the clock; and if the command has finished, all of it has been done since it was requested. -/
structure Truthful (F : Type) [F64 F] (config : Configuration) (profile : Profile)
    (fromSlice : List UInt8 → Option Command) (turns : Nat) (lines : List Bool)
    (t : List (Event ServerOp.Ans)) (i time : Nat) (tag : LogTag) (cmd : Command) : Prop where
  sent : Sent profile fromSlice t cmd
  thread : Executes F config profile fromSlice turns lines t i cmd
  clock : ∃ before after, sectionsOf i t = before ++ ⟨.now, some time⟩ :: after ∧
    ∀ c ∈ after, ∀ time', c ≠ ⟨.now, some time'⟩
  finish : tag = .finish → DoneSince cmd (cmd.deeds config) (sectionsOf i t)

section Runs

variable {F : Type} [F64 F] {config : Configuration} {profile : Profile}
  {fromSlice : List UInt8 → Option Command} {turns : Nat} {lines : List Bool}
  {t t₁ t₂ : List (Event ServerOp.Ans)} {s : Sys ServerOp ServerOp.Ans Controller}
  {e : Event ServerOp.Ans} {cmd : Command} {time : Nat} {tag : LogTag}

theorem effects_of_acts (i : Nat) (t : List (Event ServerOp.Ans)) :
    (actsOf i t).filterMap effect = sectionsOf i t := by
  rw [actsOf, sectionsOf, List.filterMap_filterMap]
  refine List.filterMap_congr fun c _ => ?_
  obtain ⟨o, x⟩ := c
  cases o with
  | act a => rfl
  | _ => rfl

/-- What such a program does next on the controller is permitted. -/
theorem permits_of_steps {Γ : Type} {T : Protocol Act Act.Ans Γ} {i : Nat} {γ : Γ}
    {p : Prog ServerOp ServerOp.Ans Unit} {Q : Unit → Γ → Prop} {a : Act}
    {k : a.Ans → Prog ServerOp ServerOp.Ans Unit}
    (hp : p.Follows (T.through serverAct) (fun _ _ => True) γ Q)
    (hs : Prog.Steps p (history i t) (.op (.act a) k)) : T.permits (T.after γ (actsOf i t)) a := by
  have h := hp.permits hs
  rw [Protocol.through_after] at h
  exact h none _ rfl

theorem audit_of_steps {handles delegates : Command → Prop} {i : Nat} {γ : Hand}
    {p : Prog ServerOp ServerOp.Ans Unit} {Q : Unit → Hand → Prop} {o : Op}
    {k : o.Ans → Prog ServerOp ServerOp.Ans Unit}
    (hp : p.Follows ((audited config handles delegates).through serverAct) (fun _ _ => True) γ Q)
    (hs : Prog.Steps p (history i t) (.op (.act (.op o)) k)) :
    (auditing config handles delegates).permits ((sectionsOf i t).foldl Hand.next γ) o := by
  have h := permits_of_steps hp hs
  rw [Protocol.through_after, effects_of_acts] at h
  exact h none _ rfl

/-- **The thread of the clients** is concerned only with what they have sent. -/
theorem sent_of_closure {a : Act} {k : a.Ans → Prog ServerOp ServerOp.Ans Unit}
    (hs : Prog.Steps (scopeClosure config profile fromSlice turns).run.discard (history 0 t)
      (.op (.act a) k)) (ha : a.Concerns cmd) : Sent profile fromSlice t cmd := by
  obtain ⟨src, hsrc, hcmd⟩ := (permits_of_steps (closure_asking.discard []) hs).2 cmd ha
  rw [clients_after (fun _ _ => rfl), List.nil_append] at hsrc
  obtain ⟨e, he, hcall⟩ := mem_clients hsrc
  exact ⟨e, he, src, hcall, hcmd⟩

theorem commandRoutine_obeys (cmd : Command) : (ofActs (commandRoutine config cmd)).Obeys
    ((audited config (· = cmd) fun _ => False).through serverAct) :=
  ofActs_obeys (expand_obeys (commandThread_obeys rfl))

theorem stopRoutine_follows : (ofActs (stopRoutine config)).Follows
    ((audited config (fun _ => False) fun _ => False).through serverAct) (fun _ _ => True) .stopping
    fun _ _ => True := by
  rw [← serverAnswers_true]
  exact ofActs_follows (audited_lifts.expand stop_follows)

theorem listener_obeys (F : Type) [F64 F] {thread : Thread} (h : thread ∈ listeners config turns) :
    (ofActs (thread.program F config profile fromSlice)).Obeys
      ((audited config (fun _ => False) fun _ => False).through serverAct) := by
  refine ofActs_obeys ((listener_unconcerned F h).obeys (fun γ a ha => ?_) fun _ _ => trivial)
  rcases ha with ha | ⟨rfl, -⟩
  · exact audited_permits ha γ
  · exact Protocol.permits_silent fun _ => rfl

/-- A thread that has nothing to do with commands. -/
theorem not_concerns {i : Nat} {γ : Hand} {p : Prog ServerOp ServerOp.Ans Unit}
    {Q : Unit → Hand → Prop} {a : Act} {k : a.Ans → Prog ServerOp ServerOp.Ans Unit}
    (hp : p.Follows ((audited config (fun _ => False) fun _ => False).through serverAct)
      (fun _ _ => True) γ Q)
    (hs : Prog.Steps p (history i t) (.op (.act a) k)) : ¬ a.Concerns cmd := fun ha =>
  (concerns_of_permits (permits_of_steps hp hs) ha).elim id id

/-- **A thread is started for what a client has sent.** -/
theorem sent_of_spawn (hrun : Run (server F config profile fromSlice)
      (serverOf config profile fromSlice turns lines) t s) {e : Event ServerOp.Ans} (he : e ∈ t)
    (hop : e.call.op = .act (.op (.spawn cmd))) : Sent profile fromSlice t cmd := by
  obtain ⟨t₁, t₂, rfl⟩ := List.append_of_mem he
  obtain ⟨m, m', hmoment⟩ := hrun.moment
  obtain ⟨k, hk, -⟩ := hmoment.step.self
  obtain ⟨tid, ⟨o, x⟩⟩ := e
  subst hop
  obtain ⟨p, horigin, hsteps⟩ := origin_of_run hmoment.before hk
  have hconcerns : (Act.op (.spawn cmd)).Concerns cmd := rfl
  cases horigin with
  | closure first =>
    obtain rfl : tid = 0 := first
    obtain ⟨e', he', hsent⟩ := sent_of_closure hsteps hconcerns
    exact ⟨e', List.mem_append_left _ he', hsent⟩
  | command cmd' t₀ e' started op =>
    exact (audit_of_steps (commandRoutine_obeys cmd' ⟨none, none⟩) hsteps).elim
  | stop t₀ e' started op => exact absurd hconcerns (not_concerns stopRoutine_follows hsteps)
  | listener thread t₀ e' started op mem =>
    exact absurd hconcerns (not_concerns (listener_obeys F mem ⟨none, none⟩) hsteps)

/-- What an audited line says of the clock, and of the command. -/
theorem said_of_permits {handles delegates : Command → Prop} {h : List (Call Op.Ans)}
    (hpermits : (auditing config handles delegates).permits (h.foldl Hand.next ⟨none, none⟩)
      (.logCommand time tag cmd)) :
    handles cmd ∧ (∃ before after, h = before ++ ⟨.now, some time⟩ :: after ∧
        ∀ c ∈ after, ∀ time', c ≠ ⟨.now, some time'⟩) ∧
      (tag = .finish → DoneSince cmd (cmd.deeds config) h) := by
  cases tag with
  | request => exact ⟨hpermits.1, reading_of_clock hpermits.2, by rintro ⟨⟩⟩
  | finish =>
    exact ⟨hpermits.1, reading_of_clock hpermits.2.1, fun _ => doneSince_of_command hpermits.2.2⟩

/-- **Whatever is logged is true.** -/
theorem truthful_of_run (hrun : Run (server F config profile fromSlice)
      (serverOf config profile fromSlice turns lines) (t₁ ++ e :: t₂) s)
    (hop : e.call.op = .act (.op (.logCommand time tag cmd))) :
    Truthful F config profile fromSlice turns lines t₁ e.tid time tag cmd := by
  obtain ⟨m, m', hmoment⟩ := hrun.moment
  obtain ⟨k, hk, -⟩ := hmoment.step.self
  obtain ⟨tid, ⟨o, x⟩⟩ := e
  subst hop
  obtain ⟨p, horigin, hsteps⟩ := origin_of_run hmoment.before hk
  have hconcerns : (Act.op (.logCommand time tag cmd)).Concerns cmd := rfl
  cases horigin with
  | closure first =>
    obtain rfl : tid = 0 := first
    have hobeys := closure_audited.discard (p := (scopeClosure config profile fromSlice turns).run)
    obtain ⟨hinline, hclock, hfinish⟩ := said_of_permits (audit_of_steps (hobeys ⟨none, none⟩) hsteps)
    exact ⟨sent_of_closure hsteps hconcerns, Or.inl ⟨hinline, rfl⟩, hclock, hfinish⟩
  | command cmd' t₀ e' started op =>
    obtain ⟨rfl, hclock, hfinish⟩ :=
      said_of_permits (audit_of_steps (commandRoutine_obeys cmd' ⟨none, none⟩) hsteps)
    exact ⟨sent_of_spawn hmoment.before started.mem op, Or.inr ⟨t₀, e', started, op⟩, hclock, hfinish⟩
  | stop t₀ e' started op => exact absurd hconcerns (not_concerns stopRoutine_follows hsteps)
  | listener thread t₀ e' started op mem =>
    exact absurd hconcerns (not_concerns (listener_obeys F mem ⟨none, none⟩) hsteps)

/-- **The log is what has been written**, in order. -/
theorem cmdLog_of_run {s₀ : Sys ServerOp ServerOp.Ans Controller}
    (hrun : Run (server F config profile fromSlice) s₀ t s) :
    ∃ texts, s.shared.shared.cmdLog.val = s₀.shared.shared.cmdLog.val ++ String.join texts ∧
      List.Forall₂ LogText (t.map Event.call) texts := by
  induction hrun with
  | refl => exact ⟨[], by simp, .nil⟩
  | @tail m m' t e _ hs ih =>
    obtain ⟨texts, hlog, hlogged⟩ := ih
    obtain ⟨tid, ⟨o, x⟩⟩ := e
    obtain ⟨w, hans, hshared⟩ := hs.exec
    obtain rfl : x = (o.exec w m.shared).1 := hans
    obtain ⟨text, hgrown, htext⟩ := cmdLog_exec o w m.shared
    refine ⟨texts ++ [text], ?_, ?_⟩
    · have hjoin : String.join [text] = text := by simp
      rw [hshared, String.join_append, hjoin, ← String.append_assoc, ← hlog]
      exact hgrown
    · rw [List.map_append]
      exact List.rel_append hlogged (.cons htext .nil)

/-- A line that has been written stands in the log. -/
theorem standsIn_of_written {s₀ : Sys ServerOp ServerOp.Ans Controller}
    (hrun : Run (server F config profile fromSlice) s₀ t s) (he : e ∈ t)
    (hcall : e.call = ⟨.act (.op (.logCommand time tag cmd)), some (.ok ())⟩) :
    StandsIn s.shared.shared.cmdLog.val (commandLine time tag cmd) := by
  obtain ⟨t₁, t₂, rfl⟩ := List.append_of_mem he
  obtain ⟨m, m', hmoment⟩ := hrun.moment
  obtain ⟨texts, hlog, hlogged⟩ := cmdLog_of_run (Run.head hmoment.step hmoment.after)
  rw [List.map_cons, hcall] at hlogged
  obtain ⟨text, texts, htext, -, rfl⟩ := List.forall₂_cons_left_iff.mp hlogged
  obtain rfl : text = commandLine time tag cmd := htext
  exact ⟨m.shared.shared.cmdLog.val, String.join texts, by
    rw [hlog, String.join_cons, String.append_assoc]⟩

/-- **The command log tells the truth.**  In every run of the server, with any clients, commands and
stops at once: the text in the file is, event by event, the lines that were written, or some of a line
where the writer failed; where it never did, the file can be read as lines in one way only, and they are
those lines; and every line, be it all there or not, is true. -/
theorem command_log_true (F : Type) [F64 F] (config : Configuration) (profile : Profile)
    (fromSlice : List UInt8 → Option Command) (turns : Nat) (lines : List Bool)
    (t : List (Event ServerOp.Ans)) (s : Sys ServerOp ServerOp.Ans Controller)
    (hrun : Run (server F config profile fromSlice) (serverOf config profile fromSlice turns lines)
      t s) :
    (∃ texts, s.shared.shared.cmdLog.val = String.join texts ∧
      List.Forall₂ LogText (t.map Event.call) texts) ∧
    ((∀ e ∈ t, ¬ FailsLog e.call) → ∀ entries : List LogEntry,
      s.shared.shared.cmdLog.val = String.join (entries.map LogEntry.line) ↔
        entries = t.filterMap fun e => entryOf e.call) ∧
    ∀ t₁ e t₂ time tag cmd, t = t₁ ++ e :: t₂ →
      e.call.op = .act (.op (.logCommand time tag cmd)) →
      Truthful F config profile fromSlice turns lines t₁ e.tid time tag cmd := by
  obtain ⟨texts, hlog, hlogged⟩ := cmdLog_of_run hrun
  replace hlog : s.shared.shared.cmdLog.val = String.join texts := by
    rw [hlog]
    exact String.empty_append
  refine ⟨⟨texts, hlog, hlogged⟩, fun hwriter entries => ?_, ?_⟩
  · have hwhole : s.shared.shared.cmdLog.val
        = String.join ((t.filterMap fun e => entryOf e.call).map LogEntry.line) := by
      rw [hlog, join_of_logText hlogged (List.forall_mem_map.mpr hwriter), List.filterMap_map]
      rfl
    rw [hwhole]
    exact ⟨fun h => (join_line_inj h).symm, fun h => h ▸ rfl⟩
  · rintro t₁ e t₂ time tag cmd rfl hop
    exact truthful_of_run hrun hop

end Runs

/-- A client asks for a stop; the log says that it was requested and that it has finished, and so it
has. -/
theorem logged_stop_has_finished : ∃ t s t₁ i,
    Run (server ℚ (.oneDriver [] [.actuate 0 true]) .release fun _ => some .emergencyStop)
      (serverOf (.oneDriver [] [.actuate 0 true]) .release (fun _ => some .emergencyStop) 1 [false])
      t s ∧ s.shared.shared.cmdLog.val = "0,request,estop\n0,finish,estop\n" ∧
    DoneSince .emergencyStop [.move .eStopping, .write 0 true, .move .standby] (sectionsOf i t₁) := by
  obtain ⟨t, s, hrun, hp⟩ := exists_guardedRun
    (M := server ℚ (.oneDriver [] [.actuate 0 true]) .release fun _ => some .emergencyStop)
    (C := fun _ _ e => writesWell e) (G := fun _ _ e => ¬ FailsWrite e.call)
    (fun _ _ _ => not_failsWrite)
    (List.replicate 43 (0, { ServerWorld.fine with incoming := .ok (.ofBytes [123, 125]) }) ++
      List.replicate 23 (3, ServerWorld.fine))
    (s := serverOf (.oneDriver [] [.actuate 0 true]) .release (fun _ => some .emergencyStop) 1
      [false])
    (P := fun t s => decide (s.shared.shared.cmdLog.val = "0,request,estop\n0,finish,estop\n") &&
      t.any fun e => decide (e.call.op = .act (.op (.logCommand 0 .finish .emergencyStop))))
    (by decide +kernel)
  simp only [Bool.and_eq_true, List.any_eq_true, decide_eq_true_eq] at hp
  obtain ⟨hlog, e, he, hop⟩ := hp
  obtain ⟨t₁, t₂, rfl⟩ := List.append_of_mem he
  obtain ⟨-, -, htrue⟩ := command_log_true ℚ (.oneDriver [] [.actuate 0 true]) .release
    (fun _ => some .emergencyStop) 1 [false] _ s hrun.run
  exact ⟨_, s, t₁, e.tid, hrun.run, hlog, (htrue t₁ e t₂ 0 .finish .emergencyStop rfl hop).finish rfl⟩

end Slonk
