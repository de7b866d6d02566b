/-
# Manual control, end to end

A client that sends `Actuate` messages and closes the connection.  What its thread does is said
once, about its program alone (`yields_handleClient`): if no write and no log fails, it returns
`Ok` after the writes that the stream asks for, in order.  The rest of the file puts that thread
into a system of any other threads that write to no driver.
-/
import Slonk.Concurrency.Modular
import Slonk.Framing
import Slonk.Sequential
import Slonk.Server

namespace Slonk

open Concurrency

variable {config : Configuration} {profile : Profile} {fromSlice : List UInt8 → Option Command}
  {ε α β : Type} {n : Nat} {i : Nat} {s s' : System} {t : Trace}

/-! ## 1. Answers -/

/-- The pins, the user log and the message log do not fail. -/
structure Reliable (env : Env) : Prop where
  pins : env.pinFails = false
  userLog : env.userLogFails = false
  messageLog : env.messageLogFails = false

/-- How operations answer then, where no lock is poisoned. -/
def Answers : (o : Op) → o.Ans → Prop
  | .write _ _, a => a = .ok ()
  | .userLog _ _, a => a = .ok ()
  | .send _, a => a = .ok ()
  | .logCommand _ _ _, a => a ≠ .error .poisoned
  | _, _ => True

theorem answers_exists (o : Op) : ∃ a, Answers o a := by
  cases o with
  | moveTo newState => exact ⟨.ok (), trivial⟩
  | sleep duration => exact ⟨(), trivial⟩
  | now => exact ⟨(0 : Nat), trivial⟩
  | write driverId value => exact ⟨.ok (), rfl⟩
  | logCommand time tag cmd => exact ⟨.ok (), nofun⟩
  | userLog level message => exact ⟨.ok (), rfl⟩
  | send message => exact ⟨.ok (), rfl⟩
  | spawn cmd => exact ⟨(), trivial⟩

/-- **An operation in range answers so** and keeps the state healthy. -/
theorem exec_answers {o : Op} {env : Env} {shared : Shared} (henv : Reliable env)
    (ho : InRange n o) (hs : Healthy n shared) :
    ∃ a, (exec o env shared).1 = some a ∧ Answers o a ∧ Healthy n (exec o env shared).2 := by
  obtain ⟨hans, hs'⟩ := exec_healthy env ho hs
  obtain ⟨a, ha⟩ := Option.ne_none_iff_exists'.mp hans
  refine ⟨a, ha, ?_, hs'⟩
  cases o with
  | write driverId value =>
    rw [exec_write_of_lt hs.driverLines (hs.length.symm ▸ ho), henv.pins] at ha
    exact (Option.some.inj ha).symm
  | userLog level message =>
    simp only [exec, hs.userLog, henv.userLog, Bool.false_eq_true, if_false] at ha
    exact (Option.some.inj ha).symm
  | send message =>
    have hok := DashChannel.send_ok hs.dashChannel hs.messageLog message env.now env.chanFails
    simp only [exec, henv.messageLog, hok] at ha
    exact (Option.some.inj ha).symm
  | logCommand time tag cmd =>
    rintro rfl
    simp only [exec, hs.cmdLog, Bool.false_eq_true, if_false] at ha
    split at ha <;> cases ha
  | _ => trivial

/-! ## 2. What a program yields -/

/-- Operating on `n` driver lines and answered so, the program returns `r` after the writes `ws`,
in at most `k` calls. -/
def Yields (n : Nat) (p : Proc ε α) (r : Except ε α) (ws : List (UInt8 × Bool)) (k : Nat) : Prop :=
  p.run.Ensures (InRange n) Answers fun a h => a = r ∧ h.filterMap wrote = ws ∧ h.length ≤ k

variable {ws ws' : List (UInt8 × Bool)} {k j : Nat}

theorem Yields.pure (a : α) : Yields n (Pure.pure a : Proc ε α) (.ok a) [] 0 :=
  ⟨rfl, rfl, Nat.le_refl 0⟩

theorem Yields.mono {p : Proc ε α} {r : Except ε α} (h : Yields n p r ws k) (hk : k ≤ j) :
    Yields n p r ws j :=
  Prog.Ensures.mono h fun _ _ ⟨hr, hw, hl⟩ => ⟨hr, hw, hl.trans hk⟩

/-- **Sequencing.** -/
theorem Yields.bind {p : Proc ε α} {f : α → Proc ε β} {a : α} {r : Except ε β}
    (hp : Yields n p (.ok a) ws k) (hf : Yields n (f a) r ws' j) :
    Yields n (p >>= f) r (ws ++ ws') (k + j) := by
  refine Prog.Ensures.bind (f := thenRun f) (Prog.Ensures.mono hp ?_)
  rintro _ h ⟨rfl, hw, hl⟩
  refine Prog.Ensures.mono hf ?_
  rintro b h' ⟨hr, hw', hl'⟩
  refine ⟨hr, ?_, ?_⟩
  · rw [List.filterMap_append, hw, hw']
  · rw [List.length_append]
    omega

/-- Sequencing, when the first part writes nothing. -/
theorem Yields.andThen {p : Proc ε α} {f : α → Proc ε β} {a : α} {r : Except ε β}
    (hp : Yields n p (.ok a) [] k) (hf : Yields n (f a) r ws j) :
    Yields n (p >>= f) r ws (k + j) := hp.bind hf

/-- Sequencing, when the second part writes nothing. -/
theorem Yields.finally {p : Proc ε α} {f : α → Proc ε β} {a : α} {r : Except ε β}
    (hp : Yields n p (.ok a) ws k) (hf : Yields n (f a) r [] j) :
    Yields n (p >>= f) r ws (k + j) := by
  rw [← List.append_nil ws]
  exact hp.bind hf

/-- One operation that writes nothing, and the rest. -/
theorem Yields.op {o : Op} {f : o.Ans → Prog Op Op.Ans (Except ε α)} {r : Except ε α}
    (ho : InRange n o) (hw : ∀ a, wrote ⟨o, a⟩ = none)
    (h : ∀ a, Answers o a → Yields n (ExceptT.mk (f a)) r ws k) :
    Yields n (ExceptT.mk (.op o f)) r ws (k + 1) := by
  refine ⟨ho, fun a ha => Prog.Ensures.mono (h a ha) ?_⟩
  rintro b h ⟨hr, hw', hl⟩
  refine ⟨hr, ?_, ?_⟩
  · rw [List.filterMap_cons_none (hw _), hw']
  · rw [List.length_cons]
    omega

theorem yields_logUser (level : LogLevel) (message : UserMessage) :
    Yields n (logUser level message) (.ok ()) [] 1 := by
  refine Yields.op (o := .userLog level message) trivial (fun _ => rfl) ?_
  rintro _ rfl
  exact Yields.pure ()

theorem yields_send (message : Message) : Yields n (send message) (.ok ()) [] 1 := by
  refine Yields.op (o := .send message) trivial (fun _ => rfl) ?_
  rintro _ rfl
  exact Yields.pure ()

theorem yields_info (message : UserMessage) : Yields n (info message) (.ok ()) [] 1 :=
  Yields.op (o := .userLog .info message) trivial (fun _ => rfl) fun _ _ => Yields.pure ()

theorem yields_write {driverId : UInt8} (h : driverId.toNat < n) (value : Bool) :
    Yields n (write driverId value) (.ok ()) [(driverId, value)] 1 := by
  refine ⟨h, ?_⟩
  rintro _ rfl
  exact ⟨rfl, rfl, Nat.le_refl 1⟩

/-- The command log may fail; that is another line in the user log. -/
theorem yields_logCommand (time : Nat) (tag : LogTag) (cmd : Command) :
    Yields n (logCommand time tag cmd) (.ok ()) [] 2 := by
  refine Yields.op (o := .logCommand time tag cmd) (k := 1) trivial (fun _ => rfl) fun a ha => ?_
  match a, ha with
  | .ok (), _ => exact (Yields.pure ()).mono (Nat.zero_le 1)
  | .error .poisoned, ha => exact absurd rfl ha
  | .error .io, _ =>
    exact Yields.op (o := .userLog .warn _) trivial (fun _ => rfl) fun _ _ => Yields.pure ()

theorem yields_now {f : Nat → Proc ExecutionError α} {r : Except ExecutionError α}
    (h : ∀ time, Yields n (f time) r ws k) : Yields n (now >>= f) r ws (k + 1) :=
  Yields.op (o := .now) trivial (fun _ => rfl) fun time _ => h time

/-- **An `Actuate` below the number of drivers is written.** -/
theorem yields_actuate {driverId : UInt8} (h : driverId.toNat < config.drivers.length)
    (value : Bool) :
    Yields config.drivers.length (handleCommand config (.actuate driverId value)) (.ok ())
      [(driverId, value)] 8 := by
  have hexec : Yields config.drivers.length (execute config (.actuate driverId value)) (.ok ())
      [(driverId, value)] 1 := by
    simp only [execute, gt_iff_lt, if_neg (Nat.not_lt.mpr h.le)]
    exact yields_write h value
  have hfinish : Yields config.drivers.length
      (now >>= fun time => logCommand time .finish (.actuate driverId value)) (.ok ()) [] 3 :=
    yields_now fun time => yields_logCommand time .finish _
  refine yields_now fun time => Yields.mono (k := 1 + (2 + (1 + 3))) ?_ (by decide)
  exact (yields_info _).andThen ((yields_logCommand time .request _).andThen
    (hexec.finally hfinish))

/-! ## 3. What the client's thread yields -/

theorem yields_actuateInline {driverId : UInt8} (h : driverId.toNat < config.drivers.length)
    (value : Bool) :
    Yields config.drivers.length (actuateInline config driverId value) (.ok ())
      [(driverId, value)] 9 := by
  have hlift : Yields config.drivers.length
      (ExceptT.lift (handleCommand config (.actuate driverId value)).run :
        Proc ControllerError (Except ExecutionError Unit)) (.ok (.ok ())) [(driverId, value)] 8 := by
    refine Prog.Ensures.bind (Prog.Ensures.mono (yields_actuate h value) ?_)
    rintro _ l ⟨rfl, hw, hl⟩
    exact ⟨rfl, by rw [List.append_nil]; exact hw, by rw [List.append_nil]; exact hl⟩
  exact Yields.finally hlift (j := 1) (yields_logUser .debug _)

/-- The writes that these frames ask for. -/
def manualWrites (fromSlice : List UInt8 → Option Command) (frames : List Frame) :
    List (UInt8 × Bool) :=
  frames.filterMap fun f =>
    match fromSlice f.bytes with
    | some (.actuate driverId value) => some (driverId, value)
    | _ => none

/-- The frame is rejected, or it is an `Actuate` of one of the drivers. -/
def ManualFrame (config : Configuration) (fromSlice : List UInt8 → Option Command) (f : Frame) :
    Prop :=
  fromSlice f.bytes = none ∨ ∃ driverId value,
    fromSlice f.bytes = some (.actuate driverId value) ∧ driverId.toNat < config.drivers.length

/-- **One turn of the loop on such a frame** makes the write it asks for, and goes on. -/
theorem yields_handleMessage {f : Frame} (hf : ManualFrame config fromSlice f) :
    Yields config.drivers.length (handleMessage config (outcome fromSlice f.bytes)) (.ok true)
      (manualWrites fromSlice [f]) 9 := by
  rcases hf with hnone | ⟨driverId, value, hcmd, hlt⟩
  · have hw : manualWrites fromSlice [f] = [] := by simp [manualWrites, hnone]
    rw [outcome, hnone, hw]
    exact ((yields_logUser .critical _).andThen (Yields.pure true)).mono (by decide)
  · have hw : manualWrites fromSlice [f] = [(driverId, value)] := by simp [manualWrites, hcmd]
    rw [outcome, hcmd, hw]
    exact Yields.finally (yields_actuateInline hlt value) (j := 0) (Yields.pure true)

/-- Whitespace and the end of the stream. -/
theorem parse_trailing (trailing : Json.Whitespace) :
    Command.parse profile fromSlice (Source.ofBytes trailing.bytes)
      = (some (.error (.io .unexpectedEof)), []) := by
  have h : Command.parseFrom profile fromSlice Scanner.new (Source.ofBytes trailing.bytes ++ [])
      = Command.parseFrom profile fromSlice (Scanner.outside trailing.bytes 0) [] :=
    parseFrom_of_run (run_whitespace trailing) []
  rw [List.append_nil] at h
  exact h

/-- What the client sends: the frames, and whitespace after the last. -/
def manualSource (frames : List Frame) (trailing : Json.Whitespace) : Source :=
  Source.ofBytes (framed frames ++ trailing.bytes)

/-- **The loop makes the writes of the frames, in order**, and ends with the stream. -/
theorem yields_handleClientLoop {frames : List Frame} (trailing : Json.Whitespace)
    (hfits : ∀ f ∈ frames, f.Fits) (hmanual : ∀ f ∈ frames, ManualFrame config fromSlice f)
    {fuel : Nat} (hfuel : (manualSource frames trailing).length < fuel) :
    Yields config.drivers.length
      (handleClientLoop config profile fromSlice fuel (manualSource frames trailing)) (.ok ())
      (manualWrites fromSlice frames) (9 * frames.length + 1) := by
  induction frames generalizing fuel with
  | nil =>
    obtain ⟨fuel, rfl⟩ : ∃ m, fuel = m + 1 := ⟨fuel - 1, by omega⟩
    have hsrc : manualSource [] trailing = Source.ofBytes trailing.bytes := rfl
    rw [hsrc, handleClientLoop, parse_trailing]
    simp only
    rw [handleMessage_eof]
    exact (yields_logUser .info _).andThen (Yields.pure ())
  | cons f frames ih =>
    obtain ⟨fuel, rfl⟩ : ∃ m, fuel = m + 1 := ⟨fuel - 1, by omega⟩
    have hsrc : manualSource (f :: frames) trailing
        = Source.ofBytes f.bytes ++ manualSource frames trailing := by
      rw [manualSource, framed_cons, List.append_assoc, Source.ofBytes_append]
      rfl
    have hlen : (manualSource frames trailing).length < fuel := by
      have hparse : Command.parse profile fromSlice
          (Source.ofBytes f.bytes ++ manualSource frames trailing)
          = (some (outcome fromSlice f.bytes), manualSource frames trailing) :=
        parse_frame (hfits f List.mem_cons_self) _
      have hne : some (outcome fromSlice f.bytes) ≠ some (.error (.io .unexpectedEof)) := by
        unfold outcome
        split <;> nofun
      have := parse_length hparse hne
      rw [hsrc] at hfuel
      omega
    have hw : manualWrites fromSlice (f :: frames)
        = manualWrites fromSlice [f] ++ manualWrites fromSlice frames :=
      List.filterMap_append (l := [f])
    rw [hsrc, handleClientLoop, parse_frame (hfits f List.mem_cons_self), hw]
    have hrest := ih (fun g hg => hfits g (List.mem_cons_of_mem _ hg))
      (fun g hg => hmanual g (List.mem_cons_of_mem _ hg)) hlen
    refine ((yields_handleMessage (hmanual f List.mem_cons_self)).bind hrest).mono ?_
    rw [List.length_cons]
    omega

/-- **`handle_client` makes the writes of the frames, in order**, and returns `Ok`. -/
theorem yields_handleClient {frames : List Frame} (trailing : Json.Whitespace)
    (hfits : ∀ f ∈ frames, f.Fits) (hmanual : ∀ f ∈ frames, ManualFrame config fromSlice f) :
    Yields config.drivers.length
      (handleClient config profile fromSlice (manualSource frames trailing)) (.ok ())
      (manualWrites fromSlice frames) (9 * frames.length + 3) := by
  refine ((yields_send _).andThen ((yields_logUser .debug _).andThen
    (yields_handleClientLoop trailing hfits hmanual (Nat.lt_succ_self _)))).mono ?_
  omega

/-! ## 4. Among other threads -/

/-- The machine whose pins, user log and message log do not fail. -/
def reliableMachine (config : Configuration) : Machine Op Op.Ans Shared {env // Reliable env} :=
  (machine config).restrict Reliable

/-- The driver writes of a trace. -/
def writesOf (t : Trace) : List (UInt8 × Bool) := t.filterMap fun e => wrote e.call

/-- No thread but `i` writes to a driver. -/
def OnlyWriter (i : Nat) (t : Trace) : Prop :=
  ∀ e ∈ t, e.tid ≠ i → ∀ driverId value, e.call.op ≠ .write driverId value

/-- A call that is no driver write. -/
theorem wrote_of_ne {c : Call Op.Ans} (h : ∀ driverId value, c.op ≠ .write driverId value) :
    wrote c = none ∧ landed c = none := by
  obtain ⟨o, a⟩ := c
  cases o with
  | write driverId value => exact absurd rfl (h driverId value)
  | _ => exact ⟨rfl, rfl⟩

/-- The writes of the trace are the writes of its one writer. -/
theorem OnlyWriter.writesOf (h : OnlyWriter i t) :
    writesOf t = (history i t).filterMap wrote := by
  rw [Slonk.writesOf, history, List.filterMap_filterMap]
  refine List.filterMap_congr fun e he => ?_
  by_cases hi : e.tid = i
  · rw [if_pos hi]
    rfl
  · rw [if_neg hi, (wrote_of_ne (h e he hi)).1]
    rfl

/-- **The driver lines follow the writes that landed.** -/
theorem run_levels (hrun : Run (reliableMachine config) s t s') :
    s'.shared.driverLines.val
      = applyWrites s.shared.driverLines.val (t.filterMap fun e => landed e.call) := by
  induction hrun with
  | refl => rfl
  | @tail s' s'' t e _ hs ih =>
    obtain ⟨env, hans, hsh⟩ := hs.exec
    have hstep := exec_levels e.call.op env.1 s'.shared
    have hcall : (⟨e.call.op, (exec e.call.op env.1 s'.shared).1⟩ : Call Op.Ans) = e.call := by
      rw [show (exec e.call.op env.1 s'.shared).1 = e.call.ans from hans.symm]
    rw [hcall] at hstep
    rw [hsh]
    refine hstep.trans ?_
    rw [ih, List.filterMap_append, applyWrites_append]
    rfl

/-- Where the one writer is answered so, every write lands. -/
theorem OnlyWriter.landed (h : OnlyWriter i t)
    (hcalls : ∀ c ∈ history i t, ∃ a, c.ans = some a ∧ Answers c.op a) :
    (t.filterMap fun e => landed e.call) = Slonk.writesOf t := by
  refine List.filterMap_congr fun e he => ?_
  by_cases hi : e.tid = i
  · have hcall := hcalls e.call (mem_history.mpr ⟨e, he, hi, rfl⟩)
    obtain ⟨tid, ⟨o, ans⟩⟩ := e
    obtain ⟨a, rfl, hA⟩ : ∃ a, ans = some a ∧ Answers o a := hcall
    cases o with
    | write driverId value =>
      obtain rfl : a = .ok () := hA
      rfl
    | _ => rfl
  · obtain ⟨hw, hl⟩ := wrote_of_ne (h e he hi)
    rw [hw, hl]

/-- The client of thread `i` controls the drivers: in the run `t` from `s₀` to `s`. -/
structure Controls (config : Configuration) (profile : Profile)
    (fromSlice : List UInt8 → Option Command) (frames : List Frame) (trailing : Json.Whitespace)
    (i : Nat) (s₀ : System) (t : Trace) (s : System)
    (q : Prog Op Op.Ans (Except ControllerError Unit)) : Prop where
  /-- what is left of its `handle_client` -/
  thread : s.threads[i]? = some q.discard
  steps : Prog.Steps (handleClient config profile fromSlice (manualSource frames trailing)).run
    (history i t) q
  /-- the writes so far are the first of those asked for -/
  writes : writesOf t <+: manualWrites fromSlice frames
  /-- it makes only so many calls, and until it returns it can make the next -/
  bounded : (history i t).length ≤ 9 * frames.length + 3
  progress : ¬ q.Finished → ∃ e s', (reliableMachine config).StepTo s e s' ∧ e.tid = i
  /-- it returns `Ok`, and only after all the writes -/
  returned : q.Finished → q = .ret (.ok ()) ∧ writesOf t = manualWrites fromSlice frames ∧
    ∀ d < config.drivers.length, s.shared.driverLines.val[d]?
      = (lastWrite (manualWrites fromSlice frames) d).or s₀.shared.driverLines.val[d]?

/-- **Manual control, end to end.**  The client sends frames that are rejected or name a driver,
with whitespace around them, and closes the connection; nothing fails that must not, and no other
thread writes to a driver.  In every run, its `handle_client` terminates and returns `Ok`, the
writes are those of the decoded commands in order, and each driver ends at the value of the last
command naming it, or as it was. -/
theorem manual_control (config : Configuration) (profile : Profile)
    (fromSlice : List UInt8 → Option Command) (frames : List Frame) (trailing : Json.Whitespace)
    (hdepth : ∀ f ∈ frames, f.object.depth < 2 ^ 31)
    (hmanual : ∀ f ∈ frames, fromSlice f.bytes = none ∨ ∃ driverId value,
      fromSlice f.bytes = some (.actuate driverId value) ∧
        driverId.toNat < config.drivers.length)
    (i : Nat) (s₀ : System)
    (hclient : s₀.threads[i]? = some
      (handleClient config profile fromSlice (manualSource frames trailing)).run.discard)
    (hhealthy : Healthy config.drivers.length s₀.shared) (t : Trace) (s : System)
    (hrun : Run (reliableMachine config) s₀ t s) (honly : OnlyWriter i t) :
    ∃ q, Controls config profile fromSlice frames trailing i s₀ t s q := by
  have hyields : Yields config.drivers.length
      (handleClient config profile fromSlice (manualSource frames trailing)) (.ok ())
      (manualWrites fromSlice frames) (9 * frames.length + 3) :=
    yields_handleClient trailing hdepth hmanual
  have hother : ∀ (o : Op) (env : {env // Reliable env}) (shared : Shared),
      (∀ driverId value, o ≠ .write driverId value) → Healthy config.drivers.length shared →
      Healthy config.drivers.length ((reliableMachine config).exec o env shared).2 := by
    intro o env shared ho hs
    refine (exec_healthy env.1 ?_ hs).2
    cases o with
    | write driverId value => exact absurd rfl (ho driverId value)
    | _ => trivial
  obtain ⟨-, q, hq, he⟩ := hrun.ensures (i := i) (A := Answers)
    (fun o env shared ho hs => exec_answers env.2 ho hs) hother hclient hyields hhealthy honly
  have hwrites := honly.writesOf
  obtain ⟨r, h', -, hall, hlen⟩ := he.complete fun o _ => answers_exists o
  rw [List.filterMap_append] at hall
  rw [List.length_append] at hlen
  refine ⟨q, hq, he.steps, ?_, by omega, ?_, ?_⟩
  · rw [hwrites, ← hall]
    exact List.prefix_append _ _
  · intro hf
    cases q with
    | ret a => exact absurd trivial hf
    | panic => exact absurd trivial hf
    | op o k => exact can_step hq rfl ⟨Env.fine, rfl, rfl, rfl⟩
  · intro hf
    obtain ⟨r, rfl, rfl, hw, -⟩ := he.finished hf
    refine ⟨rfl, hwrites.trans hw, fun d hd => ?_⟩
    rw [run_levels hrun, honly.landed he.calls, hwrites, hw, getElem?_applyWrites]
    rw [hhealthy.length]
    exact hd

/-- The client sends an `Actuate`, an object that is no command and whitespace. -/
def manualClient : System :=
  client (Configuration.oneDriver [] []) .release sampleFromSlice
    (manualSource [⟨[.space], actuateMessage⟩, ⟨[], strangeMessage⟩] [.lineFeed])
    (Shared.new [false])

/-- Its eleven calls make the one write. -/
theorem manual_control_of_client :
    ∃ t s q, Run (reliableMachine (Configuration.oneDriver [] [])) manualClient t s ∧
      (history 0 t).length = 11 ∧ writesOf t = [(0, true)] ∧
      Controls (Configuration.oneDriver [] []) .release sampleFromSlice
        [⟨[.space], actuateMessage⟩, ⟨[], strangeMessage⟩] [.lineFeed] 0 manualClient t s q := by
  let schedule := List.replicate 12 (0, (⟨Env.fine, rfl, rfl, rfl⟩ : {env // Reliable env}))
  have hrun := run_runSchedule (M := reliableMachine (Configuration.oneDriver [] [])) schedule
    manualClient
  have htid : ∀ i ∈ ((reliableMachine (Configuration.oneDriver [] [])).runSchedule schedule
      manualClient).1.map Event.tid, i = 0 := by decide +kernel
  have honly : OnlyWriter 0 ((reliableMachine (Configuration.oneDriver [] [])).runSchedule schedule
      manualClient).1 := fun e he hne => absurd (htid _ (List.mem_map_of_mem he)) hne
  obtain ⟨q, hq⟩ := manual_control (Configuration.oneDriver [] []) .release sampleFromSlice
    [⟨[.space], actuateMessage⟩, ⟨[], strangeMessage⟩] [.lineFeed] (by decide) (by
      intro f hf
      simp only [List.mem_cons, List.not_mem_nil, or_false] at hf
      rcases hf with rfl | rfl
      · exact Or.inr ⟨0, true, by decide +kernel, by decide⟩
      · exact Or.inl (by decide +kernel))
    0 manualClient rfl (healthy_new [false]) _ _ hrun honly
  exact ⟨_, _, q, hrun, by decide +kernel, by decide +kernel, hq⟩

end Slonk
