/-
# What may be logged, and what may be done

`handle_command` writes a line to the command log before it executes a command, and another when it
has.  This file says what a thread has to have done when it writes a line, and what it has to have
logged when it moves the guard or writes to a driver (`auditing`), and shows of each program that it
has: `handle_command`, the thread of a command, the thread of a client that executes an `Actuate`
itself, and the stops of the monitors, which log nothing and have a stop in hand from the beginning.

The state of that protocol is what the thread has in `Hand`.  It permits "finish" only where the
thread's own request for the same command came before, and in between the thread has done all of what
the command stands for, in order and nothing else (`Accomplishes`); and it permits nothing to be done
but what the command in hand comes to next (`Hand.Due`).  A line can be read in one way only, and so can
a file of whole lines (`join_line_inj`).

`CommandLog.lean` and `Accountability.lean` bring this to the runs of the server.
-/
import Slonk.CriticalSections
import Slonk.Concurrency.Obeys

namespace Slonk

open Concurrency

/-! ## 1. Lines -/

/-- A number that ends before a character that is no digit. -/
theorem toDigits_append_inj {c : Char} (hc : c.isDigit = false) {n n' : Nat} {l l' : List Char}
    (h : Nat.toDigits 10 n ++ c :: l = Nat.toDigits 10 n' ++ c :: l') : n = n' ∧ l = l' := by
  have htake : ∀ (n : Nat) (l : List Char),
      (Nat.toDigits 10 n ++ c :: l).takeWhile Char.isDigit = Nat.toDigits 10 n := by
    intro n l
    rw [List.takeWhile_append_of_pos fun _ hd =>
      Nat.isDigit_of_mem_toDigits (by norm_num) (by norm_num) hd]
    simp [hc]
  have hdigits : Nat.toDigits 10 n = Nat.toDigits 10 n' := by rw [← htake n l, h, htake]
  refine ⟨?_, ?_⟩
  · rw [← Nat.ofDigitChars_ten_toDigits (n := n), hdigits, Nat.ofDigitChars_ten_toDigits]
  · rw [hdigits] at h
    exact (List.cons.inj (List.append_cancel_left h)).2

theorem display_actuate (driverId : UInt8) (value : Bool) :
    (Command.actuate driverId value).display.toList
      = "actuate ".toList ++ (Nat.toDigits 10 driverId.toNat ++ ' ' :: (toString value).toList) := by
  have hid : toString driverId = toString driverId.toNat := rfl
  have hstring : ∀ s : String, toString s = s := fun _ => rfl
  simp [Command.display, hid, hstring]

/-- The text of a command is that of no other. -/
theorem display_inj {cmd cmd' : Command} (h : cmd.display = cmd'.display) : cmd = cmd' := by
  have hlist := congrArg String.toList h
  have hvalue : ∀ {value value' : Bool}, (toString value).toList = (toString value').toList →
      value = value' := by decide
  cases cmd with
  | actuate driverId value =>
    cases cmd' with
    | actuate driverId' value' =>
      rw [display_actuate, display_actuate] at hlist
      obtain ⟨hid, hlast⟩ := toDigits_append_inj (by decide) (List.append_cancel_left hlist)
      rw [UInt8.toNat_inj.mp hid, hvalue hlast]
    | ignition =>
      rw [display_actuate] at hlist
      simp [Command.display] at hlist
    | emergencyStop =>
      rw [display_actuate] at hlist
      simp [Command.display] at hlist
  | ignition =>
    cases cmd' with
    | actuate driverId' value' =>
      rw [display_actuate] at hlist
      simp [Command.display] at hlist
    | ignition => rfl
    | emergencyStop => simp [Command.display] at hlist
  | emergencyStop =>
    cases cmd' with
    | actuate driverId' value' =>
      rw [display_actuate] at hlist
      simp [Command.display] at hlist
    | ignition => simp [Command.display] at hlist
    | emergencyStop => rfl

/-- The word between the commas. -/
def LogTag.word : LogTag → String
  | request => "request"
  | finish => "finish"

/-- What a line of the command log says. -/
structure LogEntry where
  time : Nat
  tag : LogTag
  cmd : Command
  deriving DecidableEq, Repr

/-- Its text, up to the end of the line. -/
def LogEntry.body (entry : LogEntry) : List Char :=
  Nat.toDigits 10 entry.time ++ ',' :: (entry.tag.word.toList ++ ',' :: entry.cmd.display.toList)

/-- The line. -/
def LogEntry.line (entry : LogEntry) : String := commandLine entry.time entry.tag entry.cmd

theorem LogEntry.line_toList (entry : LogEntry) : entry.line.toList = entry.body ++ ['\n'] := by
  obtain ⟨time, tag, cmd⟩ := entry
  have hstring : ∀ s : String, toString s = s := fun _ => rfl
  cases tag with
  | request => simp [line, body, commandLine, LogTag.word, hstring]
  | finish => simp [line, body, commandLine, LogTag.word, hstring]

theorem toDigits_newline (n : Nat) : '\n' ∉ Nat.toDigits 10 n := fun h =>
  absurd (Nat.isDigit_of_mem_toDigits (by norm_num) (by norm_num) h) (by decide)

theorem display_newline (cmd : Command) : '\n' ∉ cmd.display.toList := by
  cases cmd with
  | actuate driverId value =>
    rw [display_actuate]
    simp only [List.mem_append, List.mem_cons, not_or]
    exact ⟨by decide, toDigits_newline _, by decide, by cases value <;> decide⟩
  | ignition => decide
  | emergencyStop => decide

/-- A line ends where it says so, and not before. -/
theorem LogEntry.body_newline (entry : LogEntry) : '\n' ∉ entry.body := by
  obtain ⟨time, tag, cmd⟩ := entry
  simp only [body, List.mem_append, List.mem_cons, not_or]
  exact ⟨toDigits_newline time, by decide, by cases tag <;> decide, by decide, display_newline cmd⟩

/-- **A line can be read in one way only.** -/
theorem LogEntry.body_injective : Function.Injective LogEntry.body := by
  rintro ⟨time, tag, cmd⟩ ⟨time', tag', cmd'⟩ h
  obtain ⟨rfl, hrest⟩ := toDigits_append_inj (by decide) h
  have hcmd : ∀ {l : List Char}, l ++ ',' :: cmd.display.toList = l ++ ',' :: cmd'.display.toList →
      cmd = cmd' := fun h =>
    display_inj (String.toList_inj.mp (List.cons.inj (List.append_cancel_left h)).2)
  cases tag with
  | request =>
    cases tag' with
    | request => rw [hcmd hrest]
    | finish => simp [LogTag.word] at hrest
  | finish =>
    cases tag' with
    | request => simp [LogTag.word] at hrest
    | finish => rw [hcmd hrest]

/-- The lines of a file of whole lines. -/
theorem splitOn_join (entries : List LogEntry) :
    (String.join (entries.map LogEntry.line)).toList.splitOn '\n'
      = entries.map LogEntry.body ++ [[]] := by
  induction entries with
  | nil => rfl
  | cons entry entries ih =>
    rw [List.map_cons, String.join_cons, String.toList_append, entry.line_toList,
      List.append_assoc, List.singleton_append,
      List.splitOn_append_cons_self_of_not_mem entry.body_newline, ih]
    rfl

/-- **So can a file of whole lines.** -/
theorem join_line_inj {entries entries' : List LogEntry}
    (h : String.join (entries.map LogEntry.line) = String.join (entries'.map LogEntry.line)) :
    entries = entries' := by
  have hlines := congrArg (fun text => text.toList.splitOn '\n') h
  rw [splitOn_join, splitOn_join] at hlines
  exact List.map_injective_iff.mpr LogEntry.body_injective (List.append_cancel_right hlines)

/-! ## 2. What a thread has in hand -/

/-- What is done to the guard, or to a driver. -/
inductive Deed
  | move (newState : State)
  | write (driverId : UInt8) (value : Bool)
  deriving DecidableEq, Repr

/-- The writes of a sequence. -/
def deedsOf (actions : List Action) : List Deed :=
  (actuations actions).map fun (driverId, value) => .write driverId value

/-- What a command stands for. -/
def Command.deeds (config : Configuration) : Command → List Deed
  | .actuate driverId value => [.write driverId value]
  | .ignition => [.move .preIgnite, .move .ignite] ++ deedsOf config.ignitionSequence ++
      [.move .postIgnite, .move .standby]
  | .emergencyStop => [.move .eStopping] ++ deedsOf config.estopSequence ++ [.move .standby]

/-- What a call has done. -/
def deed : Call Op.Ans → Option Deed
  | ⟨.moveTo newState, some (.ok ())⟩ => some (.move newState)
  | ⟨.write driverId value, some (.ok ())⟩ => some (.write driverId value)
  | _ => none

/-- What an operation is about to do. -/
def Op.deed : Op → Option Deed
  | .moveTo newState => some (.move newState)
  | .write driverId value => some (.write driverId value)
  | _ => none

/-- The operations that do something. -/
def Op.Acts : Op → Prop
  | .moveTo _ | .write _ _ => True
  | _ => False

/-- What a thread has read off the clock last, and the command it is executing, with what has been done
for it, as long as nothing has failed. -/
structure Hand where
  clock : Option Nat
  command : Option (Command × List Deed)
  deriving DecidableEq, Repr

/-- Something has been done. -/
def Hand.did (γ : Hand) (d : Deed) : Hand :=
  { γ with command := γ.command.map fun (cmd, deeds) => (cmd, deeds ++ [d]) }

/-- A call. -/
def Hand.next (γ : Hand) : Call Op.Ans → Hand
  | ⟨.now, some time⟩ => { γ with clock := some time }
  | ⟨.logCommand _ .request cmd, some (.ok ())⟩ => { γ with command := some (cmd, []) }
  | ⟨.logCommand _ .request cmd, some (.error .io)⟩ => { γ with command := some (cmd, []) }
  | ⟨.logCommand _ _ _, _⟩ => { γ with command := none }
  | ⟨.moveTo newState, some (.ok ())⟩ => γ.did (.move newState)
  | ⟨.moveTo _, _⟩ => { γ with command := none }
  | ⟨.write driverId value, some (.ok ())⟩ => γ.did (.write driverId value)
  | ⟨.write _ _, _⟩ => { γ with command := none }
  | _ => γ

/-- It comes next in the command. -/
def Hand.Due (config : Configuration) (γ : Hand) (d : Deed) : Prop :=
  ∃ cmd done, γ.command = some (cmd, done) ∧ done ++ [d] <+: cmd.deeds config

/-- **What may be logged**: the time is that of the clock; and a command has finished when it has been
requested, and all of it has been done since.  **What may be done** is what comes next in the command in
hand.  The commands that are logged are those the thread `handles`, and it starts threads for those it
`delegates`. -/
def auditing (config : Configuration) (handles delegates : Command → Prop) :
    Protocol Op Op.Ans Hand where
  permits γ
    | .logCommand time .request cmd => handles cmd ∧ γ.clock = some time
    | .logCommand time .finish cmd =>
      handles cmd ∧ γ.clock = some time ∧ γ.command = some (cmd, cmd.deeds config)
    | .spawn cmd => delegates cmd
    | .moveTo newState => γ.Due config (.move newState)
    | .write driverId value => γ.Due config (.write driverId value)
    | _ => True
  aborts _ := True
  next := Hand.next

/-! ## 3. The commands -/

section Commands

variable {config : Configuration} {handles delegates : Command → Prop} {cmd : Command}
  {before : List Deed}

/-- A part of the command, where it comes next, does this and nothing else; and when it succeeds, all of
it. -/
def Accomplishes (config : Configuration) (handles delegates : Command → Prop) (cmd : Command)
    (before : List Deed) (p : Proc ExecutionError Unit) (deeds : List Deed) : Prop :=
  before ++ deeds <+: cmd.deeds config → ∀ γ : Hand, γ.command = some (cmd, before) →
    p.run.Follows (auditing config handles delegates) (fun _ _ => True) γ
      fun r γ' => r = .ok () → γ'.command = some (cmd, before ++ deeds)

theorem accomplishes_bind {p : Proc ExecutionError Unit} {f : Unit → Proc ExecutionError Unit}
    {deeds deeds' : List Deed} (hp : Accomplishes config handles delegates cmd before p deeds)
    (hf : Accomplishes config handles delegates cmd (before ++ deeds) (f ()) deeds') :
    Accomplishes config handles delegates cmd before (p >>= f) (deeds ++ deeds') := by
  intro hnext γ hγ
  rw [← List.append_assoc] at hnext
  refine Fallible.follows_bind (hp ((List.prefix_append _ _).trans hnext) γ hγ) ?_ ?_
  · rintro u γ' h
    refine (hf hnext γ' (h rfl)).mono fun r γ'' h' hr => ?_
    rw [h' hr, List.append_assoc]
  · rintro e γ' - ⟨⟩

theorem accomplishes_moveTo (newState : State) :
    Accomplishes config handles delegates cmd before (moveTo newState) [.move newState] := by
  intro hnext γ hγ
  refine ⟨⟨cmd, before, hγ, hnext⟩, ?_⟩
  rintro (e | u) - hr
  · cases hr
  · simp [auditing, Hand.next, Hand.did, hγ]

theorem accomplishes_write (driverId : UInt8) (value : Bool) :
    Accomplishes config handles delegates cmd before (write driverId value) [.write driverId value] := by
  intro hnext γ hγ
  refine ⟨⟨cmd, before, hγ, hnext⟩, ?_⟩
  rintro (e | u) - hr
  · cases hr
  · simp [auditing, Hand.next, Hand.did, hγ]

theorem accomplishes_sleep (duration : Duration) :
    Accomplishes config handles delegates cmd before (sleep duration) [] := by
  intro _ γ hγ
  refine ⟨trivial, ?_⟩
  rintro u - -
  simp [auditing, Hand.next, hγ]

theorem accomplishes_performActions : ∀ (actions : List Action) {before : List Deed},
    Accomplishes config handles delegates cmd before (performActions actions) (deedsOf actions)
  | [], before => fun _ γ hγ _ => by simpa [deedsOf] using hγ
  | .actuate driverId value :: actions, before =>
    accomplishes_bind (accomplishes_write driverId value) (accomplishes_performActions actions)
  | .sleep duration :: actions, before =>
    accomplishes_bind (accomplishes_sleep duration) (accomplishes_performActions actions)

theorem accomplishes_ignition : Accomplishes config handles delegates cmd before (ignition config)
    (Command.ignition.deeds config) := by
  have h : Accomplishes config handles delegates cmd before (ignition config)
      ([.move .preIgnite] ++ ([] ++ ([.move .ignite] ++ (deedsOf config.ignitionSequence ++
        ([.move .postIgnite] ++ ([] ++ [.move .standby])))))) := by
    refine accomplishes_bind (accomplishes_moveTo _) ?_
    refine accomplishes_bind (accomplishes_sleep _) ?_
    refine accomplishes_bind (accomplishes_moveTo _) ?_
    refine accomplishes_bind (accomplishes_performActions _) ?_
    refine accomplishes_bind (accomplishes_moveTo _) ?_
    exact accomplishes_bind (accomplishes_sleep _) (accomplishes_moveTo _)
  simpa [Command.deeds] using h

theorem accomplishes_emergencyStop : Accomplishes config handles delegates cmd before
    (emergencyStop config) (Command.emergencyStop.deeds config) := by
  have h : Accomplishes config handles delegates cmd before (emergencyStop config)
      ([.move .eStopping] ++ (deedsOf config.estopSequence ++ [.move .standby])) := by
    refine accomplishes_bind (accomplishes_moveTo _) ?_
    exact accomplishes_bind (accomplishes_performActions _) (accomplishes_moveTo _)
  simpa [Command.deeds] using h

/-- **What `execute` accomplishes** is what the command stands for. -/
theorem accomplishes_execute (cmd : Command) :
    Accomplishes config handles delegates cmd [] (execute config cmd) (cmd.deeds config) := by
  cases cmd with
  | actuate driverId value =>
    simp only [execute]
    split
    · rintro - γ - ⟨⟩
    · exact accomplishes_write driverId value
  | ignition => exact accomplishes_ignition
  | emergencyStop => exact accomplishes_emergencyStop

/-- A line that may be logged.  An error of the writer is only worth a warning. -/
theorem follows_logCommand {γ : Hand} {time : Nat} {tag : LogTag}
    (h : (auditing config handles delegates).permits γ (.logCommand time tag cmd)) :
    (logCommand time tag cmd).run.Follows (auditing config handles delegates) (fun _ _ => True) γ
      fun r γ' => r = .ok () → tag = .request → γ'.command = some (cmd, []) := by
  refine ⟨h, ?_⟩
  rintro (e | u) -
  · cases e with
    | poisoned => rintro ⟨⟩
    | io =>
      refine ⟨trivial, ?_⟩
      rintro u - - rfl
      rfl
  · rintro - rfl
    rfl

theorem audit_prologue (hcmd : handles cmd) (γ : Hand) :
    (prologue cmd).run.Follows (auditing config handles delegates) (fun _ _ => True) γ
      fun r γ' => r = .ok () → γ'.command = some (cmd, []) := by
  refine ⟨trivial, fun time _ => ⟨trivial, fun _ _ => ?_⟩⟩
  exact Prog.Follows.mono (follows_logCommand ⟨hcmd, rfl⟩) fun r γ' h hr => h hr rfl

/-- **`handle_command` logs what is true, and does what it has logged**, whatever came before. -/
theorem handleCommand_obeys (hcmd : handles cmd) :
    (handleCommand config cmd).run.Obeys (auditing config handles delegates) := by
  intro γ
  rw [handleCommand_eq]
  refine Fallible.follows_bind (audit_prologue hcmd γ) ?_ fun _ _ _ => trivial
  rintro u γ' hγ'
  refine Fallible.follows_bind (accomplishes_execute cmd (List.prefix_refl _) γ' (hγ' rfl)) ?_
    fun _ _ _ => trivial
  rintro u γ'' hdone
  refine ⟨trivial, fun time _ => ?_⟩
  exact Prog.Follows.mono (follows_logCommand ⟨hcmd, rfl, hdone rfl⟩) fun _ _ _ => trivial

theorem commandThread_obeys (hcmd : handles cmd) :
    (commandThread config cmd).Obeys (auditing config handles delegates) :=
  .bind (handleCommand_obeys hcmd) fun _ => .op (fun _ => trivial) fun _ => .ret ()

/-- What the thread of a stop that a monitor has started has in hand. -/
def Hand.stopping : Hand := ⟨none, some (.emergencyStop, [])⟩

/-- **Such a thread** does what a stop stands for. -/
theorem stop_follows : (emergencyStop config).run.discard.Follows
    (auditing config handles delegates) (fun _ _ => True) .stopping fun _ _ => True :=
  Prog.Follows.discard ((accomplishes_emergencyStop (List.prefix_refl _) .stopping rfl).mono
    fun _ _ _ => trivial)

/-! ## 4. A client -/

theorem logUser_obeys (level : LogLevel) (message : UserMessage) :
    (logUser level message).run.Obeys (auditing config handles delegates) := by
  refine .op (fun _ => trivial) ?_
  rintro (e | u)
  · exact .ret _
  · exact .ret _

/-- Does the thread of a client handle it itself? -/
def Command.Inline : Command → Prop
  | .actuate _ _ => True
  | _ => False

/-- A message. -/
theorem handleMessage_obeys {result : Except IncomingError Command}
    (hhandles : ∀ cmd, result = .ok cmd → cmd.Inline → handles cmd)
    (hdelegates : ∀ cmd, result = .ok cmd → delegates cmd) :
    (handleMessage config result).run.Obeys (auditing config handles delegates) := by
  have hend : ∀ level message (b : Bool), (logUser level message >>= fun _ => pure b :
      Proc ControllerError Bool).run.Obeys (auditing config handles delegates) :=
    fun level message b => Fallible.obeys_bind (logUser_obeys level message) fun _ => .ret _
  have hspawn : ∀ cmd, delegates cmd → (spawn cmd >>= fun _ =>
      logUser .debug (.text "Finished executing command.") >>= fun _ => pure true :
      Proc ControllerError Bool).run.Obeys (auditing config handles delegates) :=
    fun cmd h => Fallible.obeys_bind (.op (fun _ => h) fun _ => .ret _) fun _ => hend _ _ _
  match result with
  | .error (.malformed message) => exact hend _ _ _
  | .error (.io .unexpectedEof) => exact hend _ _ _
  | .error (.io .connectionReset) => exact hend _ _ _
  | .error (.io .interrupted) => exact hend _ _ _
  | .error (.io (.other description)) => exact hend _ _ _
  | .ok .ignition => exact hspawn _ (hdelegates _ rfl)
  | .ok .emergencyStop => exact hspawn _ (hdelegates _ rfl)
  | .ok (.actuate driverId value) =>
    refine Fallible.obeys_bind (Fallible.obeys_bind
      (p := ExceptT.lift (handleCommand config (.actuate driverId value)).run) ?_ ?_) fun _ => .ret _
    · exact .bind (handleCommand_obeys (hhandles _ rfl trivial)) fun _ => .ret _
    · rintro (e | u)
      · exact logUser_obeys _ _
      · exact logUser_obeys _ _

/-- **`handle_client`** handles what the client has sent, and delegates no other command. -/
theorem handleClient_obeys (profile : Profile) (fromSlice : List UInt8 → Option Command)
    (src : Source) : (handleClient config profile fromSlice src).run.Obeys (auditing config
      (fun cmd => cmd.Inline ∧ cmd ∈ decode profile fromSlice src)
      (· ∈ decode profile fromSlice src)) := by
  have hloop : ∀ handles delegates : Command → Prop,
      (∀ cmd ∈ decode profile fromSlice src, (cmd.Inline → handles cmd) ∧ delegates cmd) →
      (handleClientLoop config profile fromSlice (src.length + 1) src).run.Obeys
        (auditing config handles delegates) := by
    intro handles delegates
    refine handleClientLoop_induct (motive := fun p cmds =>
      (∀ cmd ∈ cmds, (cmd.Inline → handles cmd) ∧ delegates cmd) →
        p.run.Obeys (auditing config handles delegates)) ?_ ?_ ?_ ?_ _ src
    · exact fun _ _ => trivial
    · exact fun _ => Fallible.obeys_bind (logUser_obeys _ _) fun _ => .ret _
    · intro e p cmds _ _ ih hcmds
      refine Fallible.obeys_bind (handleMessage_obeys (by rintro _ ⟨⟩) (by rintro _ ⟨⟩)) ?_
      rintro (_ | _)
      · exact .ret _
      · exact ih hcmds
    · intro cmd p cmds ih hcmds
      rw [List.forall_mem_cons] at hcmds
      refine Fallible.obeys_bind (handleMessage_obeys ?_ ?_) ?_
      · rintro _ ⟨⟩
        exact hcmds.1.1
      · rintro _ ⟨⟩
        exact hcmds.1.2
      · rintro (_ | _)
        · exact .ret _
        · exact ih hcmds.2
  refine Fallible.obeys_bind (.op (fun _ => trivial) ?_) fun _ =>
    Fallible.obeys_bind (logUser_obeys _ _) fun _ => hloop _ _ fun cmd h => ⟨fun hi => ⟨hi, h⟩, h⟩
  rintro (e | u)
  · exact .ret _
  · exact .ret _

end Commands

/-! ## 5. Lock by lock -/

/-- The operation logs the command, or starts a thread for it. -/
def Act.Concerns : Act → Command → Prop
  | op (.spawn cmd), cmd' => cmd = cmd'
  | op (.logCommand _ _ cmd), cmd' => cmd = cmd'
  | _, _ => False

/-- The operation has nothing to do with a command, does nothing, and starts nothing. -/
def Act.Unconcerned : Act → Prop
  | op (.spawn _) | op (.logCommand _ _ _) | op (.moveTo _) | op (.write _ _) | spawnStop => False
  | _ => True

theorem Act.Unconcerned.not_concerns {a : Act} (h : a.Unconcerned) (cmd : Command) :
    ¬ a.Concerns cmd := by
  intro hcmd
  cases a with
  | op o =>
    cases o with
    | spawn cmd' => exact h
    | logCommand time tag cmd' => exact h
    | _ => exact hcmd
  | _ => exact hcmd

theorem unconcerned_of_common {a : Act} (h : a.Common) : a.Unconcerned := by
  cases a with
  | op o =>
    cases o with
    | now => trivial
    | sleep duration => trivial
    | userLog level message => trivial
    | _ => exact h.elim
  | _ => trivial

section LockByLock

variable {config : Configuration} {handles delegates : Command → Prop}

/-- The same, of the operations of the controller. -/
abbrev audited (config : Configuration) (handles delegates : Command → Prop) :
    Protocol Act Act.Ans Hand :=
  (auditing config handles delegates).through effect

theorem audited_permits {a : Act} (ha : a.Unconcerned) (γ : Hand) :
    (audited config handles delegates).permits γ a := by
  intro x c hc
  cases a with
  | op o =>
    obtain rfl := Option.some.inj hc
    cases o with
    | spawn cmd => exact ha.elim
    | logCommand time tag cmd => exact ha.elim
    | moveTo newState => exact ha.elim
    | write driverId value => exact ha.elim
    | _ => trivial
  | _ => cases hc

theorem audited_lifts : Lifts (auditing config handles delegates) (fun _ _ => True)
    (audited config handles delegates) fun _ _ => True where
  permits := by
    rintro γ o h x c ⟨⟩
    exact h
  next _ _ _ := rfl
  silent := by
    intro γ a ha
    cases a with
    | acquire l mode => exact ⟨audited_permits (a := .acquire l mode) trivial γ, fun _ => rfl⟩
    | release l => exact ⟨audited_permits (a := .release l) trivial γ, fun _ => rfl⟩
    | unwind guards => exact ⟨audited_permits (a := .unwind guards) trivial γ, fun _ => rfl⟩
    | _ => exact ha.elim
  aborts _ h := h
  answers _ _ _ := trivial
  poisoned _ _ _ := ⟨trivial, rfl⟩

theorem expand_obeys {α : Type} {p : Prog Op Op.Ans α}
    (hp : p.Obeys (auditing config handles delegates)) :
    (p.expand critical).Obeys (audited config handles delegates) := fun γ => audited_lifts.expand (hp γ)

end LockByLock

end Slonk
