/-
# Concurrent reads

One thread for each sensor group reads the ADCs, and all of them talk over one bus.  `Mcp3208::read`
is faithful when nobody else moves the pins (`reads_faithful`); here any number of threads read, and
their pin operations interleave as the mutex of the bus lets them.

`Device::transfer` takes the mutex before it touches a pin, and gives it back last on every way out,
so a read is a block in the sense of `Concurrency.Atomic`.  A run is then the reads one after the
other, each faithful on the pins the one before it has left, and the beginning of one more; and what a
thread gets are the results of its own (`concurrent_reads_serial`).
-/
import Slonk.Adc
import Slonk.ChipSelect
import Slonk.Concurrency.Serial

namespace Slonk.Mcp3208

open Concurrency Spi

/-! ## 1. Readers -/

/-- Threads that make these reads over one bus. -/
def readers (readss : List (List (Nat × UInt8))) (b : Bus) : Sys PinOp PinOp.Ans Bus :=
  ⟨b, readss.map fun reads => (readAll reads).discard⟩

/-- A run of them, while no pin fails. -/
def ReadersRun (readss : List (List (Nat × UInt8))) (b : Bus) (t : List (Event PinOp.Ans))
    (s : Sys PinOp PinOp.Ans Bus) : Prop :=
  GuardedRun (machine.restrict Works) Waits (readers readss b) t s

/-- A read that a thread has made. -/
abbrev Reading := Visit PinOp.Ans (Nat × UInt8) (Except Error UInt16)

/-- **The reads one after the other**: these, each faithful where the ones before it have left the
pins, and the beginning of one more by thread `j`.  What a thread gets are the results of its own. -/
structure ReadsSerially (readss : List (List (Nat × UInt8))) (b : Bus) (t : List (Event PinOp.Ans))
    (s : Sys PinOp PinOp.Ans Bus) (readings : List Reading) (j : Nat)
    (current : List (Call PinOp.Ans)) : Prop where
  trace : t = readings.flatMap Visit.events ++ current.map (⟨j, ·⟩)
  faithful : ReadsFaithful (Pins.ofBus b) (readings.map Visit.block) (readings.map Visit.result)
    (readings.flatMap Visit.calls)
  order : ∀ i reads, readss[i]? = some reads → (visitsOf i readings).map Visit.block <+: reads
  results : ∀ i reads rs, readss[i]? = some reads →
    Prog.Steps (readAll reads) (history i t) (.ret rs) →
      (visitsOf i readings).map Visit.block = reads ∧ rs = (visitsOf i readings).map Visit.result
  current : (current = [] ∧ Rests s.shared ∧ s.shared.holder = none) ∨
    s.shared.holder ≠ none ∧ ∃ device channel q, (∃ reads, readss[j]? = some reads ∧
      (visitsOf j readings).map Visit.block ++ [(device, channel)] <+: reads) ∧
      Prog.Steps (read device channel).run current q ∧ ¬ q.Finished ∧
      ∃ h' r, ReadFaithful device channel
        ((Pins.ofBus b).replay (readings.flatMap Visit.calls)) (current ++ h') r

/-! ## 2. A read is a block -/

/-- The bus under its mutex. -/
def mutex : Resource PinOp Bus where
  opens o := ∃ device, o = .lock device
  closes o := o = .unlock
  free b := b.holder = none
  rests b := Rests b ∧ b.holder = none

theorem mutex_locks : mutex.Locks machine Works where
  noFork _ := rfl
  taken := by
    rintro _ env b ⟨device, rfl⟩ - ⟨hb, -⟩
    simp [machine, exec, hb.poisoned, mutex]
  kept := by
    intro o env b hopens hcloses hfree
    cases o with
    | lock device => exact absurd ⟨device, rfl⟩ hopens
    | unlock => exact absurd rfl hcloses
    | sleep _ => exact hfree
    | miso => exact hfree
    | _ =>
      simp only [machine_exec, exec]
      split
      · exact hfree
      · exact hfree
  free _ h := h.2

/-- An operation that leaves the mutex alone. -/
def Spares (o : PinOp) : Prop := ¬ mutex.opens o ∧ ¬ mutex.closes o

theorem spares_transferBit (halfPeriod : Duration) (byteOut byteIn bitIdx : UInt8) :
    (transferBit halfPeriod byteOut byteIn bitIdx).run.All Spares := by
  have hother : ∀ o : PinOp, (∀ device, o ≠ .lock device) → o ≠ .unlock → Spares o :=
    fun o hlock hunlock => ⟨fun ⟨device, h⟩ => hlock device h, hunlock⟩
  have hop : ∀ {α β : Type} {o : PinOp} {f : o.Ans → Except Error α} {g : α → SpiProc β},
      Spares o → (∀ a, (g a).run.All Spares) → (Fallible.attempt o f >>= g).run.All Spares :=
    fun ho hg => Fallible.all_bind ⟨ho, fun _ => trivial⟩ hg
  have hsleep : ∀ {β : Type} {g : Unit → SpiProc β}, (∀ a, (g a).run.All Spares) →
      ((Fallible.call (PinOp.sleep halfPeriod) : SpiProc Unit) >>= g).run.All Spares :=
    fun hg => Fallible.all_bind ⟨hother _ (by simp) (by simp), fun _ => trivial⟩ hg
  refine hop (hother _ (by simp) (by simp)) fun _ => hsleep fun _ => ?_
  refine hop (hother _ (by simp) (by simp)) fun _ => ?_
  refine hop (hother _ (by simp) (by simp)) fun _ => hsleep fun _ => ?_
  exact hop (hother _ (by simp) (by simp)) fun _ => trivial

theorem spares_transferBits (halfPeriod : Duration) (byteOut : UInt8) :
    ∀ (idxs : List UInt8) (byteIn : UInt8), (ExceptT.run
      (idxs.foldlM (transferBit halfPeriod byteOut) byteIn)).All Spares
  | [], _ => trivial
  | idx :: idxs, byteIn => by
    rw [List.foldlM_cons]
    exact Fallible.all_bind (spares_transferBit ..) fun byteIn' =>
      spares_transferBits halfPeriod byteOut idxs byteIn'

theorem spares_transferBytes (halfPeriod : Duration) : ∀ buffers : List (UInt8 × UInt8),
    (transferBytes halfPeriod buffers).run.All Spares
  | [] => trivial
  | (byteOut, byteIn) :: rest => by
    unfold transferBytes
    refine Fallible.all_bind (spares_transferBits halfPeriod byteOut bitIndices byteIn) fun _ => ?_
    exact Fallible.all_bind (spares_transferBytes halfPeriod rest) fun _ => trivial

/-- The transfer proper leaves the mutex alone. -/
theorem spares_body (device : Nat) (halfPeriod : Duration) (buffers : List (UInt8 × UInt8)) :
    (show SpiProc (List UInt8) from do
      Fallible.attempt (.select device false) id
      let incoming ← transferBytes halfPeriod buffers
      Fallible.attempt (.select device true) id
      pure incoming).run.All Spares := by
  have hselect : ∀ value, Spares (.select device value) :=
    fun value => ⟨by simp [mutex], by simp [mutex]⟩
  refine Fallible.all_bind ⟨hselect false, fun _ => trivial⟩ fun _ => ?_
  refine Fallible.all_bind (spares_transferBytes halfPeriod buffers) fun _ => ?_
  exact Fallible.all_bind ⟨hselect true, fun _ => trivial⟩ fun _ => trivial

/-- **A transfer** takes the mutex first and gives it back last, however it ends. -/
theorem closed_transfer (device : Nat) (outgoing incoming : List UInt8)
    (hlen : outgoing.length = incoming.length) :
    ∃ k, (transfer device outgoing incoming).run = .op (.lock device) k ∧
      ∀ a, (k a).Closed mutex := by
  unfold transfer
  rw [if_neg (not_not.mpr hlen)]
  refine ⟨_, rfl, ?_⟩
  rintro (e | period)
  · trivial
  · refine Prog.Closed.bind (f := fun r => .op .unlock fun _ => .ret r)
      (spares_body device (period / 2) (outgoing.zip incoming)) fun r => ?_
    exact ⟨by simp [mutex], fun _ _ => trivial, fun _ => trivial⟩

theorem closed_read (device : Nat) {channel : UInt8} (hchannel : channel < 8) :
    ∃ k, (read device channel).run = .op (.lock device) k ∧ ∀ a, (k a).Closed mutex := by
  unfold read
  rw [if_neg (by rw [UInt8.not_le]; exact hchannel)]
  obtain ⟨k, hk, hclosed⟩ := closed_transfer device
    [(0x6 : UInt8) ||| (channel >>> 2), (channel &&& 0x3) <<< 6, 0] [0, 0, 0] rfl
  rw [Fallible.run_bind, hk]
  refine ⟨_, rfl, fun a => (hclosed a).bind_finished ?_⟩
  rintro (e | incoming)
  · trivial
  · simp only [Fallible.onOk_ok]
    split
    · split
      · trivial
      · trivial
    · trivial

/-- A transfer leaves the mutex free. -/
theorem spec_transfer_free (device : Nat) {outgoing incoming : List UInt8}
    (hlen : outgoing.length = incoming.length) {b : Bus} (hb : b.poisoned = false) :
    (transfer device outgoing incoming).Succeeds machine Works b fun r _ b' =>
      r.length = incoming.length ∧ b'.holder = none := by
  unfold transfer
  rw [if_neg (not_not.mpr hlen)]
  refine Fallible.Succeeds.bind (Fallible.Succeeds.attempt fun env _ => ?_)
  refine ⟨.ok b.period, { b with holder := some device }, b.period, by simp [exec, hb], rfl, ?_⟩
  refine Fallible.Succeeds.thenAlways ?_
  refine Fallible.Succeeds.bind (Fallible.Succeeds.attempt fun env henv => ?_)
  refine ⟨_, _, (), exec_select henv device false _, rfl, ?_⟩
  refine Fallible.Succeeds.bind ((spec_transferBytes _ _ _).mono ?_)
  rintro _ _ b' ⟨levels, hlevels, -, rfl, -⟩
  refine Fallible.Succeeds.bind (Fallible.Succeeds.attempt fun env henv => ?_)
  refine ⟨_, _, (), exec_select henv device true _, rfl, ?_⟩
  refine Fallible.Succeeds.pure fun env _ => ⟨(), _, rfl, ?_, rfl⟩
  simp [hlevels, hlen]

theorem spec_read_free (device : Nat) {channel : UInt8} (hchannel : channel < 8) {b : Bus}
    (hb : b.poisoned = false) :
    Spec machine Works (read device channel).run b fun _ _ b' => b'.holder = none := by
  unfold read
  rw [if_neg (by rw [UInt8.not_le]; exact hchannel)]
  have hlengths : [(0x6 : UInt8) ||| (channel >>> 2), (channel &&& 0x3) <<< 6, 0].length =
      [(0 : UInt8), 0, 0].length := rfl
  refine Spec.bind (f := Fallible.onOk _) (Spec.mono (spec_transfer_free device hlengths hb) ?_)
  rintro _ _ b' ⟨r, rfl, hlen, hfree⟩
  obtain ⟨b₀, b₁, b₂, rfl⟩ := List.length_eq_three.mp hlen
  simp only [Fallible.onOk_ok]
  split
  · exact Spec.ret hfree
  · exact Spec.ret hfree

/-- What a read does alone. -/
def Reads (r : Nat × UInt8) (b : Bus) (result : Except Error UInt16) (h : List (Call PinOp.Ans))
    (b' : Bus) : Prop :=
  ReadFaithful r.1 r.2 (Pins.ofBus b) h result ∧ Pins.ofBus b' = (Pins.ofBus b).replay h

/-- **A read is a block.** -/
theorem atomic_read (r : Nat × UInt8) (hchannel : r.2 < 8) :
    Atomic mutex machine Works (Reads r) (read r.1 r.2).run where
  begins := by
    obtain ⟨k, hk, hclosed⟩ := closed_read r.1 hchannel
    exact ⟨_, k, hk, ⟨r.1, rfl⟩, hclosed⟩
  meets b hb := by
    refine ((spec_replay (spec_read r.1 hchannel hb.1)).and
      (spec_read_free r.1 hchannel hb.1.poisoned)).mono ?_
    rintro result h b' ⟨⟨⟨hread, hrests⟩, hpins, -⟩, hfree⟩
    exact ⟨⟨hread, hpins⟩, hrests, hfree⟩

/-! ## 3. Runs -/

theorem readAll_eq : ∀ reads : List (Nat × UInt8),
    readAll reads = Prog.serially (fun r => (read r.1 r.2).run) reads
  | [] => rfl
  | r :: reads => by
    rw [readAll, Prog.serially, readAll_eq reads]

theorem ReadsFaithful.snoc {p : Pins} {reads : List (Nat × UInt8)} {rs : List (Except Error UInt16)}
    {h h' : List (Call PinOp.Ans)} {device : Nat} {channel : UInt8} {r : Except Error UInt16}
    (hreads : ReadsFaithful p reads rs h) (hread : ReadFaithful device channel (p.replay h) h' r) :
    ReadsFaithful p (reads ++ [(device, channel)]) (rs ++ [r]) (h ++ h') := by
  induction hreads with
  | nil p => simpa using ReadsFaithful.cons hread (.nil _)
  | cons hfirst _ ih =>
    rw [List.append_assoc]
    exact .cons hfirst (ih (by simpa using hread))

/-- Reads one after the other are faithful. -/
theorem faithful_of_chain {b b' : Bus} {readings : List Reading} (h : Chain Reads b readings b') :
    ReadsFaithful (Pins.ofBus b) (readings.map Visit.block) (readings.map Visit.result)
        (readings.flatMap Visit.calls) ∧
      Pins.ofBus b' = (Pins.ofBus b).replay (readings.flatMap Visit.calls) := by
  induction h with
  | nil => exact ⟨.nil _, rfl⟩
  | @snoc readings x s' s'' _ hread ih =>
    obtain ⟨hfaithful, hpins⟩ := ih
    obtain ⟨hread, hpins'⟩ := hread
    rw [hpins] at hread hpins'
    simp only [List.map_append, List.flatMap_append, List.map_cons, List.map_nil,
      List.flatMap_cons, List.flatMap_nil, List.append_nil, Pins.replay_append]
    exact ⟨hfaithful.snoc hread, hpins'⟩

section Runs

variable {readss : List (List (Nat × UInt8))} {b : Bus} {t : List (Event PinOp.Ans)}
  {s : Sys PinOp PinOp.Ans Bus}

/-- The thread has made just these reads when it has returned. -/
theorem results_of_between {readings : List Reading} {reads : List (Nat × UInt8)} {i : Nat}
    (h : Between (fun r : Nat × UInt8 => (read r.1 r.2).run) readings reads i t s.threads)
    {rs : List (Except Error UInt16)} (hrs : Prog.Steps (readAll reads) (history i t) (.ret rs))
    (hchannels : ∀ r ∈ reads, r.2 < 8) :
    (visitsOf i readings).map Visit.block = reads ∧
      rs = (visitsOf i readings).map Visit.result := by
  rw [readAll_eq] at hrs
  rcases h.opens fun r hr => atomic_read r (hchannels r hr) with
    ⟨rest, r, o, k, -, hop, -, hstanding⟩ | ⟨hreads, hstanding⟩
  · have := hstanding.steps.unique hrs
    rw [hop] at this
    cases this
  · exact ⟨hreads.symm, Prog.ret.inj (hstanding.steps.unique hrs)⟩

/-- The beginning of a read can be completed. -/
theorem completes {p : Prog PinOp PinOp.Ans (Except Error UInt16)} {b' : Bus}
    {Q : Except Error UInt16 → List (Call PinOp.Ans) → Bus → Prop} (h : Spec machine Works p b' Q) :
    ∃ r h' b'', Q r h' b'' := by
  obtain ⟨r, -, hQ⟩ := h (fun _ => ⟨false, false, false⟩) fun _ => ⟨rfl, rfl⟩
  exact ⟨r, _, _, hQ⟩

/-- **Every run is serial.** -/
theorem serialized_of_run (hb : Rests b) (hfree : b.holder = none)
    (hchannels : ∀ reads ∈ readss, ∀ r ∈ reads, r.2 < 8) (hrun : ReadersRun readss b t s) :
    Serialized mutex (fun r : Nat × UInt8 => (read r.1 r.2).run) machine Works Reads readss b t s ∧
      s.threads.length = readss.length := by
  refine Serialized.of_run mutex_locks (fun reads hreads r hr => atomic_read r (hchannels reads hreads r hr))
    (fun t s e hwaits hopens => ?_) ⟨hb, hfree⟩ (G := Waits) ?_
  · obtain ⟨device, hdevice⟩ := hopens
    exact hwaits device hdevice
  · simpa only [ReadersRun, readers, readAll_eq] using hrun

/-- **Concurrent reads are faithful, one after the other.**  Whatever any number of threads read over
one bus, in every run in which no pin fails: the pin operations are those of complete reads, each
keeping to the protocol of the chip with only its own device selected, and the beginning of one more;
a thread gets the results of its own reads, in order.  And unless all threads have finished, one of
them can take a step. -/
theorem concurrent_reads_serial (readss : List (List (Nat × UInt8))) (b : Bus) (hb : Rests b)
    (hfree : b.holder = none) (hchannels : ∀ reads ∈ readss, ∀ r ∈ reads, r.2 < 8)
    (t : List (Event PinOp.Ans)) (s : Sys PinOp PinOp.Ans Bus) (hrun : ReadersRun readss b t s) :
    (∃ readings j current, ReadsSerially readss b t s readings j current) ∧
      ((∃ p ∈ s.threads, ¬ p.Finished) →
        ∃ e s', (machine.restrict Works).StepTo s e s' ∧ Waits t s e) := by
  obtain ⟨hserial, hlength⟩ := serialized_of_run hb hfree hchannels hrun
  refine ⟨?_, fun hne => ?_⟩
  · cases hserial with
    | rest readings chain rests trace threads =>
      refine ⟨readings, 0, [], by simpa using trace, (faithful_of_chain chain).1, ?_, ?_,
        Or.inl ⟨rfl, rests⟩⟩
      · intro i reads hreads
        obtain ⟨rest, hsplit, -⟩ := threads i reads hreads
        exact ⟨rest, hsplit.symm⟩
      · intro i reads rs hreads hrs
        exact results_of_between (threads i reads hreads) hrs
          (hchannels reads (List.mem_of_getElem? hreads))
    | busy readings j r h q b₁ unfinished doing =>
      obtain ⟨hfaithful, hpins⟩ := faithful_of_chain doing.chain
      obtain ⟨reads, rest, hreads, hsplit, hstanding⟩ := doing.thread
      refine ⟨readings, j, h, doing.trace, hfaithful, ?_, ?_, Or.inr ⟨doing.taken unfinished, ?_⟩⟩
      · intro i reads' hreads'
        by_cases hi : i = j
        · subst hi
          obtain rfl := Option.some.inj (hreads.symm.trans hreads')
          exact ⟨r :: rest, hsplit.symm⟩
        · obtain ⟨rest', hsplit', -⟩ := doing.others i reads' hi hreads'
          exact ⟨rest', hsplit'.symm⟩
      · intro i reads' rs hreads' hrs
        by_cases hi : i = j
        · -- the thread that reads has not returned
          subst hi
          obtain rfl := Option.some.inj (hreads.symm.trans hreads')
          rw [readAll_eq] at hrs
          have hq := hstanding.steps.unique hrs
          cases q with
          | ret a => exact absurd trivial unfinished
          | panic => exact absurd trivial unfinished
          | op o k => cases hq
        · exact results_of_between (doing.others i reads' hi hreads') hrs
            (hchannels reads' (List.mem_of_getElem? hreads'))
      · obtain ⟨result, h', b', ⟨hread, -⟩, -⟩ := completes doing.meets
        rw [hpins] at hread
        refine ⟨r.1, r.2, q, ⟨reads, hreads, rest, ?_⟩, doing.steps, unfinished, h', result, hread⟩
        rw [hsplit, List.append_assoc]
        rfl
  · obtain ⟨e, s', hstep, hopens⟩ := hserial.progress mutex_locks
      (show Works ⟨false, false, false⟩ from ⟨rfl, rfl⟩) hlength hne
    exact ⟨e, s', hstep, fun device hdevice => hopens ⟨device, hdevice⟩⟩

end Runs

/-- A chip that answers this level. -/
def answering (miso : Bool) : {env : PinEnv // Works env} := ⟨⟨false, false, miso⟩, rfl, rfl⟩

/-- Two threads read one channel each.  The second one waits until the first has read its twenty-four
levels and given the mutex back. -/
theorem two_readers_serial : ∃ t s, ReadersRun [[(0, 0)], [(1, 5)]] (Bus.atRest 1000) t s ∧
    (∀ p ∈ s.threads, p.Finished) ∧
    ∃ readings j current,
      ReadsSerially [[(0, 0)], [(1, 5)]] (Bus.atRest 1000) t s readings j current := by
  obtain ⟨t, s, hrun, hp⟩ := exists_guardedRun (M := machine.restrict Works)
    (C := fun _ s (e : Event PinOp.Ans) => match e.call.op with
      | .lock _ => s.shared.holder.isNone
      | _ => true)
    (G := Waits) (fun _ s e h device hdevice => by
      rw [hdevice] at h
      exact Option.isNone_iff_eq_none.mp h)
    (List.replicate 148 (0, answering false) ++ List.replicate 148 (1, answering true))
    (s := readers [[(0, 0)], [(1, 5)]] (Bus.atRest 1000))
    (P := fun _ s => s.threads.all fun q => q.pending.isNone) (by decide +kernel)
  simp only [List.all_eq_true, Option.isNone_iff_eq_none, Prog.pending_eq_none] at hp
  exact ⟨t, s, hrun, hp, (concurrent_reads_serial [[(0, 0)], [(1, 5)]] (Bus.atRest 1000)
    ⟨rfl, fun _ => rfl, rfl⟩ rfl (by simp) t s hrun).1⟩

end Slonk.Mcp3208
