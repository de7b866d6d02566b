/-
# The bytes on the wire

`Outgoing.lean` has a channel hold the messages it has received in full.  Here the same
`DashChannel` holds bytes: each writer that was ever installed has the bytes it has accepted, and
the message log is a file.  A writer may fail after any number of bytes; so may the log.

`refines_send` and `refines_setChannel` connect the two: as long as the log does not fail, the
bytes are those of the messages `Outgoing.lean` speaks of.  What it does not speak of is the part
of a message that a failing writer has accepted, and who is written to afterwards: `Faithful`
relates the bytes to the writes made so far (`writes`), and is kept by every call.

How a message is serialised is up to `serialize`; that its text has no newline in it is all that is
used.
-/
import Slonk.Outgoing

namespace Slonk

/-! ## 1. The calls -/

/-- The bytes a writer accepts when it fails after `limit` of them. -/
def accepted (bytes : List UInt8) : Option Nat → List UInt8
  | none => bytes
  | some limit => bytes.take limit

/-- Whether that is a failure. -/
def cutShort (bytes : List UInt8) : Option Nat → Bool
  | none => false
  | some limit => decide (limit < bytes.length)

@[simp] theorem accepted_none (bytes : List UInt8) : accepted bytes none = bytes := rfl

@[simp] theorem cutShort_none (bytes : List UInt8) : cutShort bytes none = false := rfl

theorem accepted_of_not_cutShort {bytes : List UInt8} {limit : Option Nat}
    (h : cutShort bytes limit = false) : accepted bytes limit = bytes := by
  cases limit with
  | none => rfl
  | some n =>
    have hle : bytes.length ≤ n := by simpa [cutShort] using h
    exact List.take_of_length_le hle

theorem accepted_of_cutShort {bytes : List UInt8} {limit : Option Nat}
    (h : cutShort bytes limit = true) : accepted bytes limit <+: bytes ∧
      accepted bytes limit ≠ bytes := by
  cases limit with
  | none => cases h
  | some n =>
    have hlt : n < bytes.length := by simpa [cutShort] using h
    refine ⟨List.take_prefix n bytes, fun heq => ?_⟩
    have hlen := congrArg List.length heq
    simp only [accepted, List.length_take] at hlen
    omega

/-- `DashChannel`: the current writer by number, the bytes each writer has received, in the order
of their installation, and the message log. -/
structure Wire where
  dashChannel : Locked (Option Nat)
  received : List (List UInt8)
  messageLog : Locked (List UInt8)

/-- `DashChannel::new`. -/
def Wire.new : Wire := ⟨Locked.new none, [], Locked.new []⟩

def newline : UInt8 := 10

/-- A number in decimal. -/
def decimal (n : Nat) : List UInt8 := (Nat.toDigits 10 n).map fun c => UInt8.ofNat c.toNat

section Serialize

variable (serialize : Message → List UInt8)

/-- A line of the message log, without its newline: the time, a comma and the message. -/
def logLine (now : Nat) (message : Message) : List UInt8 :=
  decimal now ++ 44 :: serialize message

/-- `DashChannel::send` at the time `now`, where the channel and the log fail after so many
bytes, if they do. -/
def Wire.send (w : Wire) (message : Message) (now : Nat) (chanLimit logLimit : Option Nat) :
    Except OutgoingError Unit × Wire :=
  if w.dashChannel.poisoned then (.error .poison, w)
  else if w.messageLog.poisoned then (.error .poison, w)
  else match w.dashChannel.val with
    | none => (.ok (), w)
    | some writer =>
      let bytes := serialize message
      let w := { w with received := w.received.modify writer (· ++ accepted bytes chanLimit) }
      -- "the connection was closed"
      if cutShort bytes chanLimit then (.ok (), { w with dashChannel.val := none })
      else
        -- "first, mark the time", "then, the message", "then a trailing newline"
        let line := logLine serialize now message ++ [newline]
        let w := { w with messageLog.val := w.messageLog.val ++ accepted line logLimit }
        if cutShort line logLimit then (.error .logFile, w) else (.ok (), w)

/-- `DashChannel::set_channel`, to a new writer or to none. -/
def Wire.setChannel (w : Wire) (channel : Bool) : Except OutgoingError Unit × Wire :=
  if w.dashChannel.poisoned then (.error .poison, w)
  else if channel then
    (.ok (), { w with dashChannel.val := some w.received.length, received := w.received ++ [[]] })
  else (.ok (), { w with dashChannel.val := none })

/-! ## 2. The messages behind the bytes -/

/-- The bytes of `w` are those of the messages of `d`. -/
structure Refines (w : Wire) (d : DashChannel) : Prop where
  dashChannel : w.dashChannel.poisoned = d.dashChannel.poisoned
  messageLog : w.messageLog.poisoned = d.messageLog.poisoned
  idle : w.dashChannel.val = none → d.dashChannel.val = none
  channel : ∀ writer, w.dashChannel.val = some writer → ∃ sent, d.dashChannel.val = some sent ∧
    w.received[writer]? = some (sent.flatMap serialize)
  log : w.messageLog.val =
    d.messageLog.val.flatMap fun entry => logLine serialize entry.1 entry.2 ++ [newline]

theorem refines_new : Refines serialize Wire.new DashChannel.new where
  dashChannel := rfl
  messageLog := rfl
  idle _ := rfl
  channel _ h := nomatch h
  log := rfl

variable {serialize} {w : Wire} {d : DashChannel}

/-- `send` with nobody to send to. -/
theorem send_idle (hc : w.dashChannel.poisoned = false) (hm : w.messageLog.poisoned = false)
    (hval : w.dashChannel.val = none) (message : Message) (now : Nat) (limit : Option Nat) :
    w.send serialize message now limit none = (.ok (), w) := by
  simp [Wire.send, hc, hm, hval]

/-- `send` to a writer that fails. -/
theorem send_cutShort (hc : w.dashChannel.poisoned = false) (hm : w.messageLog.poisoned = false)
    {writer : Nat} (hval : w.dashChannel.val = some writer) {message : Message} (now : Nat)
    {limit : Option Nat} (hcut : cutShort (serialize message) limit = true) :
    w.send serialize message now limit none = (.ok (), { w with
      dashChannel := ⟨none, false⟩
      received := w.received.modify writer (· ++ accepted (serialize message) limit) }) := by
  simp [Wire.send, hc, hm, hval, hcut]

/-- `send` to a writer that takes the message. -/
theorem send_whole (hc : w.dashChannel.poisoned = false) (hm : w.messageLog.poisoned = false)
    {writer : Nat} (hval : w.dashChannel.val = some writer) {message : Message} (now : Nat)
    {limit : Option Nat} (hcut : cutShort (serialize message) limit = false) :
    w.send serialize message now limit none = (.ok (),
      { dashChannel := w.dashChannel
        received := w.received.modify writer (· ++ serialize message)
        messageLog :=
          ⟨w.messageLog.val ++ (logLine serialize now message ++ [newline]), false⟩ }) := by
  simp [Wire.send, hc, hm, hval, hcut, accepted_of_not_cutShort hcut]

/-- **`send` refines `send`**, when the log does not fail. -/
theorem refines_send (h : Refines serialize w d) (message : Message) (now : Nat)
    (limit : Option Nat) :
    (w.send serialize message now limit none).1 =
        (d.send message now (cutShort (serialize message) limit) false).1 ∧
      Refines serialize (w.send serialize message now limit none).2
        (d.send message now (cutShort (serialize message) limit) false).2 := by
  cases hc : w.dashChannel.poisoned with
  | true =>
    have hd := h.dashChannel.symm.trans hc
    simp only [Wire.send, DashChannel.send, hc, hd, if_true]
    exact ⟨trivial, h⟩
  | false =>
    have hd := h.dashChannel.symm.trans hc
    cases hm : w.messageLog.poisoned with
    | true =>
      have hdm := h.messageLog.symm.trans hm
      simp only [Wire.send, DashChannel.send, hc, hd, hm, hdm, Bool.false_eq_true, if_false, if_true]
      exact ⟨trivial, h⟩
    | false =>
      have hdm := h.messageLog.symm.trans hm
      cases hval : w.dashChannel.val with
      | none =>
        rw [send_idle hc hm hval]
        simp only [DashChannel.send, hd, hdm, h.idle hval, Bool.false_eq_true, if_false]
        exact ⟨trivial, h⟩
      | some writer =>
        obtain ⟨sent, hsent, hreceived⟩ := h.channel writer hval
        cases hcut : cutShort (serialize message) limit with
        | true =>
          rw [send_cutShort hc hm hval now hcut]
          simp only [DashChannel.send, hd, hdm, hsent, Bool.false_eq_true, if_false, if_true]
          exact ⟨trivial, rfl, hm.trans hdm.symm, fun _ => rfl, fun _ h => (nomatch h), h.log⟩
        | false =>
          rw [send_whole hc hm hval now hcut]
          simp only [DashChannel.send, hd, hdm, hsent, Bool.false_eq_true, if_false]
          refine ⟨trivial, hc, rfl, fun hnone => ?_, ?_, ?_⟩
          · exact nomatch hval.symm.trans hnone
          · rintro writer' hwriter
            obtain rfl : writer = writer' := Option.some.inj (hval.symm.trans hwriter)
            refine ⟨sent ++ [message], rfl, ?_⟩
            simp [hreceived]
          · simp [h.log]

/-- **`set_channel` refines `set_channel`**. -/
theorem refines_setChannel (h : Refines serialize w d) (channel : Bool) :
    (w.setChannel channel).1 = (d.setChannel (if channel then some [] else none)).1 ∧
      Refines serialize (w.setChannel channel).2
        (d.setChannel (if channel then some [] else none)).2 := by
  unfold Wire.setChannel DashChannel.setChannel
  rw [h.dashChannel]
  split
  · exact ⟨rfl, h⟩
  cases channel with
  | true =>
    refine ⟨rfl, h.dashChannel, h.messageLog, nofun, ?_, h.log⟩
    rintro writer hwriter
    obtain rfl := Option.some.inj hwriter
    exact ⟨[], rfl, by simp⟩
  | false => exact ⟨rfl, h.dashChannel, h.messageLog, fun _ => rfl, fun _ h => (nomatch h), h.log⟩

/-! ## 3. Sequences of calls -/

/-- A call on a `DashChannel`: `send`, at this time and with this limit of the channel, or
`set_channel`.  The log does not fail. -/
inductive ChannelCall
  | send (message : Message) (now : Nat) (limit : Option Nat)
  | setChannel (channel : Bool)

variable (serialize)

/-- One call. -/
def Wire.call (w : Wire) : ChannelCall → Except OutgoingError Unit × Wire
  | .send message now limit => w.send serialize message now limit none
  | .setChannel channel => w.setChannel channel

/-- The results of these calls and the channel after them. -/
def Wire.calls : Wire → List ChannelCall → List (Except OutgoingError Unit) × Wire
  | w, [] => ([], w)
  | w, c :: cs =>
    (((w.call serialize c).1 :: ((w.call serialize c).2.calls cs).1),
      ((w.call serialize c).2.calls cs).2)

/-- A message written to a channel, in full or in part. -/
structure Write where
  writer : Nat
  now : Nat
  message : Message
  limit : Option Nat

/-- What the writer has accepted of it. -/
def Write.bytes (x : Write) : List UInt8 := accepted (serialize x.message) x.limit

/-- Whether the writer has failed in it. -/
def Write.truncated (x : Write) : Bool := cutShort (serialize x.message) x.limit

/-- Its line in the log. -/
def Write.line (x : Write) : List UInt8 := logLine serialize x.now x.message

/-- The write a call makes: a `send` writes to the current writer, if there is one. -/
def Wire.write? (w : Wire) : ChannelCall → Option Write
  | .send message now limit => w.dashChannel.val.map fun writer => ⟨writer, now, message, limit⟩
  | .setChannel _ => none

/-- The writes of these calls. -/
def Wire.writes : Wire → List ChannelCall → List Write
  | _, [] => []
  | w, c :: cs => (w.write? c).toList ++ (w.call serialize c).2.writes cs

/-- **What the writes so far have left**: the bytes of every writer and the log are theirs, and
nobody writes to a writer that has failed, nor will. -/
structure Faithful (ws : List Write) (w : Wire) : Prop where
  dashChannel : w.dashChannel.poisoned = false
  messageLog : w.messageLog.poisoned = false
  received : ∀ writer bytes, w.received[writer]? = some bytes →
    bytes = (ws.filter (·.writer = writer)).flatMap (Write.bytes serialize)
  installed : ∀ x ∈ ws, x.writer < w.received.length
  current : ∀ writer, w.dashChannel.val = some writer → writer < w.received.length ∧
    ∀ x ∈ ws, x.writer = writer → x.truncated serialize = false
  silent : ws.Pairwise fun x y => x.truncated serialize = true → y.writer ≠ x.writer
  log : w.messageLog.val =
    ((ws.filter (!·.truncated serialize)).map (Write.line serialize)).flatMap (· ++ [newline])

theorem faithful_new : Faithful serialize [] Wire.new where
  dashChannel := rfl
  messageLog := rfl
  received _ _ h := nomatch h
  installed _ h := absurd h List.not_mem_nil
  current _ h := nomatch h
  silent := .nil
  log := rfl

variable {serialize} {ws : List Write}

/-- What a writer has received, after a write to one of them. -/
theorem received_modify {writer writer' : Nat} {bytes bytes' : List UInt8}
    (h : (w.received.modify writer (· ++ bytes))[writer']? = some bytes') :
    ∃ old, w.received[writer']? = some old ∧
      bytes' = old ++ if writer' = writer then bytes else [] := by
  rw [List.getElem?_modify] at h
  obtain ⟨old, hold, rfl⟩ := Option.map_eq_some_iff.mp h
  refine ⟨old, hold, ?_⟩
  by_cases heq : writer = writer'
  · simp [heq]
  · simp [heq, Ne.symm heq]

/-- **A write** adds to the bytes of its writer, and to the log if it is whole. -/
theorem Faithful.write (h : Faithful serialize ws w) (x : Write)
    (hval : w.dashChannel.val = some x.writer) {w' : Wire}
    (hc : w'.dashChannel.poisoned = false) (hm : w'.messageLog.poisoned = false)
    (hreceived : w'.received = w.received.modify x.writer (· ++ x.bytes serialize))
    (hcurrent : ∀ writer, w'.dashChannel.val = some writer →
      writer = x.writer ∧ x.truncated serialize = false)
    (hlog : w'.messageLog.val = w.messageLog.val ++
      if x.truncated serialize then [] else x.line serialize ++ [newline]) :
    Faithful serialize (ws ++ [x]) w' := by
  obtain ⟨hlt, hwhole⟩ := h.current x.writer hval
  constructor
  · exact hc
  · exact hm
  · intro writer bytes hbytes
    rw [hreceived] at hbytes
    obtain ⟨old, hold, rfl⟩ := received_modify hbytes
    rw [h.received writer old hold]
    by_cases heq : writer = x.writer
    · simp [heq]
    · simp [heq, Ne.symm heq]
  · intro y hy
    rw [hreceived, List.length_modify]
    rcases List.mem_append.mp hy with hy | hy
    · exact h.installed y hy
    · obtain rfl := List.mem_singleton.mp hy
      exact hlt
  · intro writer hwriter
    obtain ⟨rfl, hx⟩ := hcurrent writer hwriter
    rw [hreceived, List.length_modify]
    refine ⟨hlt, fun y hy hyx => ?_⟩
    rcases List.mem_append.mp hy with hy | hy
    · exact hwhole y hy hyx
    · obtain rfl := List.mem_singleton.mp hy
      exact hx
  · rw [List.pairwise_append]
    refine ⟨h.silent, List.pairwise_singleton _ _, ?_⟩
    intro y hy z hz htruncated heq
    obtain rfl := List.mem_singleton.mp hz
    exact nomatch htruncated.symm.trans (hwhole y hy heq.symm)
  · rw [hlog, h.log]
    cases htruncated : x.truncated serialize with
    | true => simp [htruncated]
    | false => simp [htruncated]

/-- **A new writer** has received nothing. -/
theorem Faithful.install (h : Faithful serialize ws w) :
    Faithful serialize ws { w with
      dashChannel := ⟨some w.received.length, false⟩, received := w.received ++ [[]] } := by
  have hnone : ∀ x ∈ ws, x.writer ≠ w.received.length := fun x hx => (h.installed x hx).ne
  constructor
  · rfl
  · exact h.messageLog
  · intro writer bytes hbytes
    by_cases hlt : writer < w.received.length
    · rw [List.getElem?_append_left hlt] at hbytes
      exact h.received writer bytes hbytes
    · have hle := (List.getElem?_eq_some_iff.mp hbytes).1
      rw [List.length_append, List.length_singleton] at hle
      obtain rfl : writer = w.received.length := by omega
      have hnil : bytes = [] := by simpa using hbytes.symm
      have hfilter : ws.filter (·.writer = w.received.length) = [] := by
        rw [List.filter_eq_nil_iff]
        intro x hx
        simpa using hnone x hx
      rw [hnil, hfilter]
      rfl
  · intro x hx
    have hlt := h.installed x hx
    simp only [List.length_append, List.length_singleton]
    omega
  · intro writer hwriter
    obtain rfl := Option.some.inj hwriter
    simp only [List.length_append, List.length_singleton]
    exact ⟨by omega, fun x hx hxw => absurd hxw (hnone x hx)⟩
  · exact h.silent
  · exact h.log

/-- **A call keeps it**, and returns `Ok`. -/
theorem Faithful.call (h : Faithful serialize ws w) (c : ChannelCall) :
    (w.call serialize c).1 = .ok () ∧
      Faithful serialize (ws ++ (w.write? c).toList) (w.call serialize c).2 := by
  cases c with
  | send message now limit =>
    unfold Wire.call Wire.write?
    cases hval : w.dashChannel.val with
    | none =>
      simp only [send_idle h.dashChannel h.messageLog hval]
      exact ⟨trivial, by simpa using h⟩
    | some writer =>
      cases hcut : cutShort (serialize message) limit with
      | true =>
        simp only [send_cutShort h.dashChannel h.messageLog hval now hcut]
        refine ⟨trivial, h.write ⟨writer, now, message, limit⟩ hval rfl h.messageLog rfl nofun ?_⟩
        simp [Write.truncated, hcut]
      | false =>
        simp only [send_whole h.dashChannel h.messageLog hval now hcut]
        refine ⟨trivial, h.write ⟨writer, now, message, limit⟩ hval h.dashChannel rfl ?_ ?_ ?_⟩
        · simp [Write.bytes, accepted_of_not_cutShort hcut]
        · intro writer' hwriter
          exact ⟨Option.some.inj (hwriter.symm.trans hval), hcut⟩
        · simp [Write.truncated, Write.line, hcut]
  | setChannel channel =>
    have hc := h.dashChannel
    cases channel with
    | true =>
      have hcall : w.call serialize (.setChannel true) = (.ok (), { w with
          dashChannel := ⟨some w.received.length, false⟩, received := w.received ++ [[]] }) := by
        simp [Wire.call, Wire.setChannel, hc]
      rw [hcall]
      exact ⟨rfl, by simpa [Wire.write?] using h.install⟩
    | false =>
      have hcall : w.call serialize (.setChannel false) =
          (.ok (), { w with dashChannel := ⟨none, false⟩ }) := by
        simp [Wire.call, Wire.setChannel, hc]
      rw [hcall]
      refine ⟨rfl, ?_⟩
      simp only [Wire.write?, Option.toList_none, List.append_nil]
      exact ⟨rfl, h.messageLog, h.received, h.installed, nofun, h.silent, h.log⟩

/-- **So do sequences of calls.** -/
theorem Faithful.calls (h : Faithful serialize ws w) (cs : List ChannelCall) :
    (∀ r ∈ (w.calls serialize cs).1, r = .ok ()) ∧
      Faithful serialize (ws ++ w.writes serialize cs) (w.calls serialize cs).2 := by
  induction cs generalizing ws w with
  | nil => exact ⟨by simp [Wire.calls], by simpa [Wire.calls, Wire.writes] using h⟩
  | cons c cs ih =>
    obtain ⟨hok, hcall⟩ := h.call c
    obtain ⟨hoks, hcalls⟩ := ih hcall
    constructor
    · simp only [Wire.calls, List.forall_mem_cons]
      exact ⟨hok, hoks⟩
    · simpa [Wire.calls, Wire.writes] using hcalls

/-! ## 4. What a reader of the bytes sees -/

/-- **The bytes of one writer**: whole messages, and then at most a part of one. -/
theorem bytes_of_writer {writer : Nat} {l : List Write} (hl : ∀ x ∈ l, x.writer = writer)
    (hsilent : l.Pairwise fun x y => x.truncated serialize = true → y.writer ≠ x.writer) :
    ∃ tail, l.flatMap (Write.bytes serialize) =
        (l.filter (!·.truncated serialize)).flatMap (fun x => serialize x.message) ++ tail ∧
      (tail = [] ∨ ∃ message, tail <+: serialize message ∧ tail ≠ serialize message) := by
  induction l with
  | nil => exact ⟨[], rfl, Or.inl rfl⟩
  | cons x l ih =>
    rw [List.forall_mem_cons] at hl
    rw [List.pairwise_cons] at hsilent
    cases hx : x.truncated serialize with
    | true =>
      obtain rfl : l = [] := by
        rw [List.eq_nil_iff_forall_not_mem]
        intro y hy
        exact hsilent.1 y hy hx ((hl.2 y hy).trans hl.1.symm)
      refine ⟨x.bytes serialize, by simp [hx], Or.inr ⟨x.message, accepted_of_cutShort hx⟩⟩
    | false =>
      obtain ⟨tail, htail, hcut⟩ := ih hl.2 hsilent.2
      have hbytes : x.bytes serialize = serialize x.message := accepted_of_not_cutShort hx
      exact ⟨tail, by simp [hx, hbytes, htail], hcut⟩

/-- **Lines are read back**, when none has a newline in it. -/
theorem splitOn_lines {lines : List (List UInt8)} (h : ∀ line ∈ lines, newline ∉ line) :
    (lines.flatMap (· ++ [newline])).splitOn newline = lines ++ [[]] := by
  induction lines with
  | nil => simp
  | cons line lines ih =>
    rw [List.forall_mem_cons] at h
    rw [List.flatMap_cons, List.append_assoc, List.singleton_append,
      List.splitOn_append_cons_self_of_not_mem h.1, ih h.2]
    rfl

theorem newline_not_mem_decimal (n : Nat) : newline ∉ decimal n := by
  intro hmem
  obtain ⟨c, hc, heq⟩ := List.mem_map.mp hmem
  have hdigit := Nat.isDigit_of_mem_toDigits (by norm_num) (by norm_num) hc
  have hrange : 48 ≤ c.toNat ∧ c.toNat ≤ 57 := by
    simpa [Char.isDigit, UInt32.le_iff_toNat_le] using hdigit
  have hval : c.toNat % 256 = 10 := by
    rw [← UInt8.toNat_ofNat', heq]
    rfl
  omega

theorem newline_not_mem_line (hserialize : ∀ message, newline ∉ serialize message) (x : Write) :
    newline ∉ x.line serialize := by
  have hcomma : newline ≠ 44 := by decide
  simp [Write.line, logLine, newline_not_mem_decimal, hserialize, hcomma]

variable (serialize)

/-- **What these calls leave to be read**, on a new `DashChannel`. -/
structure Delivered (cs : List ChannelCall) : Prop where
  ok : ∀ r ∈ (Wire.new.calls serialize cs).1, r = .ok ()
  received : ∀ writer bytes, (Wire.new.calls serialize cs).2.received[writer]? = some bytes →
    ∃ tail, bytes = (((Wire.new.writes serialize cs).filter (·.writer = writer)).filter
        (!·.truncated serialize)).flatMap (fun x => serialize x.message) ++ tail ∧
      (tail = [] ∨ ∃ message, tail <+: serialize message ∧ tail ≠ serialize message)
  silent : (Wire.new.writes serialize cs).Pairwise
    fun x y => x.truncated serialize = true → y.writer ≠ x.writer
  log : (Wire.new.calls serialize cs).2.messageLog.val.splitOn newline =
    ((Wire.new.writes serialize cs).filter (!·.truncated serialize)).map (Write.line serialize) ++
      [[]]

/-- **Outgoing messages are whole, logged exactly, and never sent to a dead channel**, whatever
the calls, their order and the moments at which writers fail. -/
theorem outgoing_messages_delivered (hserialize : ∀ message, newline ∉ serialize message)
    (cs : List ChannelCall) : Delivered serialize cs := by
  obtain ⟨hok, h⟩ := (faithful_new serialize).calls cs
  rw [List.nil_append] at h
  constructor
  · exact hok
  · intro writer bytes hbytes
    rw [h.received writer bytes hbytes]
    have hwriter : ∀ x ∈ (Wire.new.writes serialize cs).filter (·.writer = writer),
        x.writer = writer := fun x hx => of_decide_eq_true (List.mem_filter.mp hx).2
    exact bytes_of_writer hwriter (h.silent.filter _)
  · exact h.silent
  · rw [h.log]
    refine splitOn_lines fun line hline => ?_
    obtain ⟨x, -, rfl⟩ := List.mem_map.mp hline
    exact newline_not_mem_line hserialize x

end Serialize

/-- The text of one message. -/
def driversText : Message → List UInt8
  | .driverValue [true, false] =>
    "\x7b\"type\":\"DriverValue\",\"values\":[true,false]\x7d".toList.map fun c =>
      UInt8.ofNat c.toNat
  | _ => []

theorem newline_not_mem_driversText (message : Message) : newline ∉ driversText message := by
  unfold driversText
  split
  · decide
  · exact List.not_mem_nil

/-- Nobody to send to, a message in full, one cut short, nobody again, and a new writer. -/
theorem drivers_delivered :
    (∀ message, newline ∉ driversText message) ∧
      Delivered driversText
        [.send (.driverValue [true, false]) 1 none, .setChannel true,
          .send (.driverValue [true, false]) 2 none, .send (.driverValue [true, false]) 3 (some 5),
          .send (.driverValue [true, false]) 4 none, .setChannel true,
          .send (.driverValue [true, false]) 5 none] :=
  ⟨newline_not_mem_driversText,
    outgoing_messages_delivered driversText newline_not_mem_driversText _⟩

end Slonk
