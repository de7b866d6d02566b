/-
# The sensor logs

`sensor_listen` keeps the readings of each sensor in a queue, and hands the queue to
`write_sensor_log` once it is as long as the log buffer.  Whether that fails or not, the queue is
cleared.

* At the head of the loop every reading of a sensor is in one batch or in the queue, and nothing else
  is; the batches that were written are in the sensor's file, whatever the other threads did
  (`logs_conserve_readings`).
* When Quit is seen the queues are not handed over.  What the file has then is all there was to
  log exactly when nothing is left in a queue: when the number of readings of each sensor is a multiple
  of the size of the buffer (`shutdown_loses_nothing_iff`).

The files belong to the thread: it has them by `&mut`, so no other thread writes to them
(`OwnsFiles`).
-/
import Slonk.Sampling
import Slonk.Nesting

namespace Slonk

open Concurrency

/-! ## 1. The files -/

/-- A file and what a call of `write_sensor_log` has put in it: all of the batch, or, if it failed, some
of it. -/
def Wrote (batch : Batch) (text : String) : Prop :=
  if batch.written then text = sensorLines batch.rows
  else ∃ n, text = String.ofList ((sensorLines batch.rows).toList.take n)

/-- The operation writes to the file. -/
def Act.WritesTo (file : LogFile) (a : Act) : Prop := ∃ rows, a = .writeSensorLog file rows

/-- **The files are the thread's own**: there are no two of one sensor, and the other threads leave them
alone. -/
structure OwnsFiles (i : Nat) (logFiles : List LogFile) (s : Sys Act Act.Ans Controller) : Prop where
  nodup : logFiles.Nodup
  others : ∀ j p, j ≠ i → s.threads[j]? = some p →
    p.All fun a => ∀ file ∈ logFiles, ¬ a.WritesTo file

/-- The batch of a call. -/
def batchOf : Call Act.Ans → Option Batch
  | ⟨.writeSensorLog file rows, some result⟩ => some ⟨file, rows, result.isOk⟩
  | _ => none

theorem batches_next (size : Nat) (γ : Record) (c : Call Act.Ans) :
    (γ.next size c).batches = γ.batches ++ (batchOf c).toList := by
  unfold Record.next
  split
  case h_3 =>
    unfold Record.timed
    split <;> simp [batchOf]
  all_goals simp [batchOf]

/-- A call that writes to another file, or to none. -/
theorem batchesOf_next_of_ne {size : Nat} {γ : Record} {c : Call Act.Ans} {file : LogFile}
    (h : ¬ c.op.WritesTo file) : (γ.next size c).batchesOf file = γ.batchesOf file := by
  rw [Record.batchesOf, batches_next, List.filter_append]
  unfold batchOf
  split
  · rename_i file' rows result
    have hne : file' ≠ file := by
      rintro rfl
      exact h ⟨rows, rfl⟩
    simp [Record.batchesOf, hne]
  · simp [Record.batchesOf]

/-- Nothing else changes a file. -/
theorem exec_sensorLogs {a : Act} {file : LogFile} (h : ¬ a.WritesTo file) (w : World)
    (c : Controller) : (a.exec w c).2.sensorLogs file = c.sensorLogs file := by
  cases a with
  | unwind guards =>
    exact Controller.foldl_poison (f := fun c => c.sensorLogs file) (fun _ l => by cases l <;> rfl)
      guards c
  | writeSensorLog file' rows =>
    have hne : file ≠ file' := by
      rintro rfl
      exact h ⟨rows, rfl⟩
    exact Function.update_of_ne hne _ _
  | readLine driverIdx =>
    simp only [Act.exec]
    split <;> rfl
  | heartbeat value =>
    simp only [Act.exec]
    split <;> rfl
  | _ => rfl

/-- A batch in its file. -/
theorem exec_writeSensorLog (file : LogFile) (rows : List String) (w : World) (c : Controller) :
    ∃ result text, ((Act.writeSensorLog file rows).exec w c).1 = some result ∧
      Wrote ⟨file, rows, result.isOk⟩ text ∧
      ((Act.writeSensorLog file rows).exec w c).2.sensorLogs file = c.sensorLogs file ++ text := by
  cases hfails : w.sensorLogFails with
  | false =>
    refine ⟨.ok (), sensorLines rows, ?_, rfl, ?_⟩
    · simp [Act.exec, writeText, hfails]
    · simp [Act.exec, writeText, hfails]
  | true =>
    refine ⟨.error (), String.ofList ((sensorLines rows).toList.take w.written), ?_, ?_, ?_⟩
    · simp [Act.exec, writeText, hfails]
    · exact ⟨w.written, rfl⟩
    · simp [Act.exec, writeText, hfails]

/-- The threads that are started on the way write to no such file. -/
theorem fork_not_writesTo {config : Configuration} {a : Act} {p : Prog Act Act.Ans Unit}
    (h : (controller config).fork a = some p) : p.All fun a => ∀ file, ¬ a.WritesTo file := by
  obtain ⟨thread, hthread, hall⟩ := fork_all config h
  refine hall.mono ?_
  rintro _ hperforms file ⟨rows, rfl⟩
  rcases hthread with ⟨cmd, rfl⟩ | rfl
  · rcases hperforms with h | ⟨_, h⟩ | ⟨_, _, h⟩ | ⟨_, _, h⟩
    · exact h
    all_goals cases h
  · rcases hperforms with h | ⟨_, h⟩ | ⟨_, _, h⟩
    · exact h
    all_goals cases h

section Runs

variable {config : Configuration} {i : Nat} {logFiles : List LogFile}
  {s₀ s : Sys Act Act.Ans Controller} {t : List (Event Act.Ans)}

/-- **A file of the thread** has what its batches put there, and what it had before. -/
theorem file_of_run (size : Nat) (hrun : Run (controller config) s₀ t s) (howns : OwnsFiles i logFiles s₀)
    {file : LogFile} (hfile : file ∈ logFiles) :
    ∃ texts, s.shared.sensorLogs file = s₀.shared.sensorLogs file ++ String.join texts ∧
      List.Forall₂ Wrote ((record size (history i t)).batchesOf file) texts := by
  induction hrun with
  | refl => exact ⟨[], by simp, .nil⟩
  | @tail m m' t e hrun hstep ih =>
    obtain ⟨texts, htext, hwrote⟩ := ih
    obtain ⟨w, hans, hshared⟩ := hstep.exec
    by_cases hwrites : e.call.op.WritesTo file
    · -- only the thread itself does
      have htid : e.tid = i := by
        by_contra hne
        obtain ⟨k, hk, -⟩ := hstep.self
        obtain ⟨p, hsteps, hp | ⟨e', -, hfork⟩⟩ := hrun.origin hk
        · exact (hsteps.all (howns.others e.tid p hne hp)).2.1 file hfile hwrites
        · exact (hsteps.all (fork_not_writesTo hfork)).2.1 file hwrites
      obtain ⟨tid, op, ans⟩ := e
      obtain ⟨rows, hop⟩ := hwrites
      obtain rfl : op = .writeSensorLog file rows := hop
      obtain rfl : tid = i := htid
      obtain ⟨result, text, hresult, hbatch, hlog⟩ := exec_writeSensorLog file rows w m.shared
      obtain rfl : ans = some result := hans.trans hresult
      have hjoin : String.join [text] = text := by simp
      have hhistory : history tid (t ++ [_]) = _ :=
        history_concat_self (e := ⟨tid, ⟨.writeSensorLog file rows, some result⟩⟩) t
      refine ⟨texts ++ [text], ?_, ?_⟩
      · rw [hshared, String.join_append, hjoin, ← String.append_assoc, ← htext]
        exact hlog
      · rw [hhistory, record_concat, Record.batchesOf, batches_next, List.filter_append]
        refine List.rel_append hwrote ?_
        simpa [batchOf] using hbatch
    · refine ⟨texts, ?_, ?_⟩
      · rw [hshared, ← htext]
        exact exec_sensorLogs hwrites w m.shared
      · by_cases htid : e.tid = i
        · subst htid
          rw [history_concat_self, record_concat, batchesOf_next_of_ne hwrites]
          exact hwrote
        · rw [history_concat_other t htid]
          exact hwrote

end Runs

/-- **In the controller** no file is that of two threads, as long as its sensor threads have files of
their own. -/
theorem ownsFiles_controllerOf (F : Type) [F64 F] (config : Configuration) (profile : Profile)
    (fromSlice : List UInt8 → Option Command) {threads : List Thread} (c : Controller) {i : Nat}
    {logFiles : List LogFile} (hnodup : logFiles.Nodup)
    (hothers : ∀ j groupId logFiles' turns, j ≠ i →
      threads[j]? = some (.sensorListen groupId logFiles' turns) → logFiles.Disjoint logFiles') :
    OwnsFiles i logFiles (controllerOf F config profile fromSlice threads c) where
  nodup := hnodup
  others j p hj hp := by
    rw [controllerOf, List.getElem?_map, Option.map_eq_some_iff] at hp
    obtain ⟨thread, hthread, rfl⟩ := hp
    refine (thread.program_all F config profile fromSlice).mono ?_
    rintro _ hperforms file hfile ⟨rows, rfl⟩
    rcases hperforms with h | h
    · exact h
    cases thread with
    | sensorListen groupId logFiles' turns => exact hothers j _ _ _ hj hthread hfile h
    | accepting turns => exact h
    | driverStatusListen turns => exact h
    | heartbeat turns =>
      obtain ⟨value, h⟩ := h
      cases h
    | handleCommand cmd =>
      rcases h with ⟨_, h⟩ | ⟨_, _, h⟩ | ⟨_, _, h⟩ <;> cases h
    | emergencyStop =>
      rcases h with ⟨_, h⟩ | ⟨_, _, h⟩ <;> cases h

/-! ## 2. At the head of the loop -/

section Logs

variable {F : Type} [F64 F] {config : Configuration} {profile : Profile} {group : SensorGroup}
  {groupId : UInt8} {logFiles : List LogFile} {i turns : Nat} {t : List (Event Act.Ans)}
  {s₀ s : Sys Act Act.Ans Controller}

/-- The row of a sample in the log of its sensor: "{time},{reading},{calib}". -/
def Sample.row (F : Type) [F64 F] (sensor : Sensor) (s : Sample) : String :=
  sensorRow (s.entry sensor : Nat × UInt16 × F)

/-- **No reading of the sensor is lost**: its samples are those of its batches, one after the other,
and those in its queue; each batch is in its file, unless it failed, and then some of it may be; a batch
has a reading in it, unless there is no buffer; and the queue is shorter than the buffer. -/
def Conserved (F : Type) [F64 F] (config : Configuration) (sensor : Sensor) (idx : Nat)
    (file : LogFile) (queue : List (Nat × UInt16 × F)) (before : String) (γ : Record)
    (c : Controller) : Prop :=
  (∃ (parts : List (List Sample)) (rest : List Sample),
    γ.ofSensor idx = parts.flatten ++ rest ∧
    (γ.batchesOf file).map Batch.rows = parts.map (·.map (Sample.row F sensor)) ∧
    queue = rest.map (·.entry sensor) ∧
    (config.logBufferSize ≠ 0 → ∀ part ∈ parts, part ≠ [])) ∧
  queue.length < max 1 config.logBufferSize ∧
  ∃ texts, c.sensorLogs file = before ++ String.join texts ∧
    List.Forall₂ Wrote (γ.batchesOf file) texts

/-- **Sensor log buffers conserve readings.**  In every run in which the log files are the thread's own,
whenever it is at the head of the loop of `sensor_listen`: no reading of any sensor is lost, and for each
batch that could not be written there was a warning about its sensor, in the same order. -/
theorem logs_conserve_readings (F : Type) [F64 F] (config : Configuration) (profile : Profile)
    (groupId : UInt8) (logFiles : List LogFile) (group : SensorGroup) (i : Nat)
    (s₀ : Sys Act Act.Ans Controller) (howns : OwnsFiles i logFiles s₀) :
    ∀ t s, Run (controller config) s₀ t s → ∀ rounds locals,
      Prog.Steps (listenFor F config profile group groupId logFiles rounds).run (history i t)
        (.ret (.ok (.inl locals))) →
      (∀ idx file, logFiles[idx.val]? = some file →
        Conserved F config (group.sensor idx) idx file (locals.mostRecentReadings.get idx)
          (s₀.shared.sensorLogs file) (record group.size (history i t)) s.shared) ∧
      List.Forall₂ (fun batch => Labels group logFiles batch.file)
        ((record group.size (history i t)).batches.filter (!·.written))
        (record group.size (history i t)).warned := by
  intro t s hrun rounds locals hs
  obtain ⟨hrests, hfits⟩ := returned_of_recorded (recorded_listenFor rounds) hs
  refine ⟨fun idx file hfile => ?_, hrests.warned⟩
  obtain ⟨parts, rest, hof, hrows, hqueue, hlength⟩ := hrests.queues howns.nodup idx file hfile
  refine ⟨⟨parts, rest, hof, hrows, hqueue, fun hsize part hpart hnil => ?_⟩,
    (hfits idx).2 trivial, file_of_run _ hrun howns (List.mem_of_getElem? hfile)⟩
  have := hlength part hpart hsize
  rw [hnil] at this
  exact hsize this.symm

/-- The stand with one sensor, with a log buffer of this size. -/
def Configuration.buffered (logBufferSize : Nat) : Configuration :=
  { Configuration.oneSensor 10 (some 1) with logBufferSize := logBufferSize }

/-- Its sensor thread, for so many turns of the loop, and a thread that shuts down. -/
def shuttingDown (logBufferSize turns : Nat) : Sys Act Act.Ans Controller :=
  ⟨.new [false], [(sensorListen ℚ (.buffered logBufferSize) .release 0 [⟨0, 0⟩] turns).run.discard,
    .op (.op (.moveTo .quit)) fun _ => .ret ()]⟩

theorem ownsFiles_shuttingDown (logBufferSize turns : Nat) :
    OwnsFiles 0 [⟨0, 0⟩] (shuttingDown logBufferSize turns) where
  nodup := List.nodup_singleton _
  others j p hj hp := by
    match j with
    | 0 => exact absurd rfl hj
    | 1 =>
      obtain rfl := Option.some.inj hp
      refine ⟨?_, fun _ => trivial⟩
      rintro file - ⟨rows, h⟩
      cases h
    | j + 2 => cases hp

/-- Three rounds with a buffer of two: the first batch cannot be written, and one reading is in the
queue. -/
theorem failed_batch_conserved : ∃ t s locals,
    Run (controller (.buffered 2)) (shuttingDown 2 3) t s ∧
    Prog.Steps (listenFor ℚ (.buffered 2) .release (.oneSensor 10 (some 1)) 0 [⟨0, 0⟩] 3).run
      (history 0 t) (.ret (.ok (.inl locals))) ∧
    ((record 1 (history 0 t)).batches.map Batch.written = [false] ∧
      (record 1 (history 0 t)).samples.length = 3) ∧
    Conserved ℚ (.buffered 2) ((SensorGroup.oneSensor 10 (some 1)).sensor SensorGroup.theSensor) 0
      ⟨0, 0⟩ (locals.mostRecentReadings.get SensorGroup.theSensor) "" (record 1 (history 0 t))
      s.shared := by
  obtain ⟨t, s, hrun, hp⟩ := exists_guardedRun (M := controller (.buffered 2))
    (G := fun _ _ _ => True) (C := fun _ _ _ => true) (fun _ _ _ _ => trivial)
    (List.replicate 47 (0, { World.fine with sensorLogFails := true, written := 3 }))
    (s := shuttingDown 2 3)
    (P := fun t _ => decide ((record 1 (history 0 t)).batches.map Batch.written = [false] ∧
        (record 1 (history 0 t)).samples.length = 3) &&
      ((listenFor ℚ (.buffered 2) .release (.oneSensor 10 (some 1)) 0 [⟨0, 0⟩] 3).run.replay
        (history 0 t)).any (Prog.returns goesOn))
    (by decide +kernel)
  simp only [Bool.and_eq_true, decide_eq_true_eq] at hp
  obtain ⟨hrecord, hreplay⟩ := hp
  obtain ⟨a, hs, ha⟩ := exists_returns hreplay
  obtain ⟨locals, rfl⟩ := exists_of_goesOn ha
  exact ⟨t, s, locals, hrun.run, hs, hrecord,
    (logs_conserve_readings ℚ (.buffered 2) .release 0 [⟨0, 0⟩] (.oneSensor 10 (some 1)) 0
      (shuttingDown 2 3) (ownsFiles_shuttingDown 2 3) t s hrun.run 3 locals hs).1
      SensorGroup.theSensor ⟨0, 0⟩ rfl⟩

/-! ## 3. At the end -/

/-- **Nothing is lost**: the file of each sensor has a line for each of its readings, in order, and
nothing else that was not there before. -/
def LogsComplete (F : Type) [F64 F] (group : SensorGroup) (logFiles : List LogFile) (γ : Record)
    (before after : Controller) : Prop :=
  ∀ (idx : Fin group.size) file, logFiles[idx.val]? = some file →
    after.sensorLogs file = before.sensorLogs file ++
      sensorLines ((γ.ofSensor idx).map (Sample.row F (group.sensor idx)))

theorem sensorLines_append (rows rows' : List String) :
    sensorLines (rows ++ rows') = sensorLines rows ++ sensorLines rows' := by
  rw [sensorLines, List.map_append, String.join_append]
  rfl

/-- There is something in every line. -/
theorem sensorLines_eq_empty {rows : List String} (h : sensorLines rows = "") : rows = [] := by
  cases rows with
  | nil => rfl
  | cons row rows =>
    have := congrArg String.length h
    simp [sensorLines, String.length_append] at this

/-- Batches that were all written are in the file, one after the other. -/
theorem join_of_written {batches : List Batch} {texts : List String}
    (h : List.Forall₂ Wrote batches texts) (hwritten : ∀ batch ∈ batches, batch.written = true) :
    String.join texts = sensorLines (batches.map Batch.rows).flatten := by
  induction h with
  | nil => rfl
  | @cons batch text batches texts hwrote _ ih =>
    rw [List.forall_mem_cons] at hwritten
    rw [Wrote, if_pos hwritten.1] at hwrote
    rw [String.join_cons, List.map_cons, List.flatten_cons, sensorLines_append, ih hwritten.2,
      hwrote]

/-- A log that fails. -/
def sensorLogFails : Call Act.Ans → Bool
  | ⟨.writeSensorLog _ _, some (.error _)⟩ => true
  | _ => false

theorem written_of_not_fails {size : Nat} {h : List (Call Act.Ans)}
    (hfine : ∀ c ∈ h, sensorLogFails c = false) : ∀ batch ∈ (record size h).batches,
      batch.written = true := by
  induction h using List.reverseRecOn with
  | nil => simp [record, Record.start]
  | append_singleton h c ih =>
    intro batch hbatch
    rw [record_concat, batches_next] at hbatch
    rcases List.mem_append.mp hbatch with hbatch | hbatch
    · exact ih (fun c hc => hfine c (List.mem_append_left _ hc)) batch hbatch
    · have hc := hfine c (by simp)
      rw [Option.mem_toList] at hbatch
      unfold batchOf at hbatch
      split at hbatch
      · rename_i result _
        obtain rfl := Option.some.inj hbatch
        cases result with
        | ok u => rfl
        | error u => cases hc
      · cases hbatch

/-- Batches are of the size of the buffer. -/
theorem dvd_length_flatten {parts : List (List Sample)}
    (h : ∀ part ∈ parts, config.logBufferSize ≠ 0 → part.length = config.logBufferSize) :
    max 1 config.logBufferSize ∣ parts.flatten.length := by
  rw [List.length_flatten]
  refine List.dvd_sum fun n hn => ?_
  obtain ⟨part, hpart, rfl⟩ := List.mem_map.mp hn
  by_cases hsize : config.logBufferSize = 0
  · simp [hsize]
  · rw [h part hpart hsize, Nat.max_eq_right (Nat.one_le_iff_ne_zero.mpr hsize)]

/-- Batches that were all written have the row of every sample of the sensor exactly if nothing is left
in its queue. -/
theorem join_eq_iff_dvd {γ : Record} {sensor : Sensor} {idx : Nat} {file : LogFile}
    {queue : List (Nat × UInt16 × F)} {texts : List String}
    (hqueued : γ.Queued config sensor idx file queue)
    (hshort : queue.length < max 1 config.logBufferSize)
    (hwrote : List.Forall₂ Wrote (γ.batchesOf file) texts)
    (hwritten : ∀ batch ∈ γ.batchesOf file, batch.written = true) :
    String.join texts = sensorLines ((γ.ofSensor idx).map (Sample.row F sensor)) ↔
      max 1 config.logBufferSize ∣ (γ.ofSensor idx).length := by
  obtain ⟨parts, rest, hof, hrows, rfl, hlength⟩ := hqueued
  have hjoin : String.join texts = sensorLines (parts.flatten.map (Sample.row F sensor)) := by
    rw [join_of_written hwrote hwritten, hrows, List.map_flatten]
    rfl
  rw [hjoin, hof, List.map_append, sensorLines_append, List.length_append,
    Nat.dvd_add_right (dvd_length_flatten hlength)]
  constructor
  · intro heq
    have hempty := sensorLines_eq_empty (String.append_eq_left_iff.mp heq.symm)
    rw [List.map_eq_nil_iff.mp hempty]
    exact Nat.dvd_zero _
  · intro hdvd
    rw [List.length_map] at hshort
    obtain rfl := List.length_eq_zero_iff.mp (Nat.eq_zero_of_dvd_of_lt hdvd hshort)
    simp [sensorLines]

/-- **Nothing is lost on shutdown exactly when nothing is left in a queue.**  In every run in which the
log files are the thread's own, one for each sensor, and `sensor_listen` has returned because it saw
Quit, with no failure of a log: the logs are complete if and only if the number of readings of each
sensor is a multiple of the size of the log buffer. -/
theorem shutdown_loses_nothing_iff (F : Type) [F64 F] (config : Configuration) (profile : Profile)
    (groupId : UInt8) (logFiles : List LogFile) (group : SensorGroup) (i turns : Nat)
    (s₀ : Sys Act Act.Ans Controller) (hgroup : config.sensorGroups[groupId.toNat]? = some group)
    (hfiles : logFiles.length = group.size) (howns : OwnsFiles i logFiles s₀) :
    ∀ t s, Run (controller config) s₀ t s →
      Prog.Steps (sensorListen F config profile groupId logFiles turns).run (history i t)
        (.ret (.ok .quit)) →
      (∀ c ∈ history i t, sensorLogFails c = false) →
      (LogsComplete F group logFiles (record group.size (history i t)) s₀.shared s.shared ↔
        ∀ idx : Fin group.size, max 1 config.logBufferSize ∣
          ((record group.size (history i t)).ofSensor idx).length) := by
  intro t s hrun hs hfine
  obtain ⟨locals, hrests, hfits⟩ := returned_of_recorded (recorded_sensorListen hgroup turns) hs
  have hiff : ∀ (idx : Fin group.size) file, logFiles[idx.val]? = some file →
      (s.shared.sensorLogs file = s₀.shared.sensorLogs file ++ sensorLines
        (((record group.size (history i t)).ofSensor idx).map (Sample.row F (group.sensor idx))) ↔
        max 1 config.logBufferSize ∣ ((record group.size (history i t)).ofSensor idx).length) := by
    intro idx file hfile
    obtain ⟨texts, htext, hwrote⟩ :=
      file_of_run group.size hrun howns (List.mem_of_getElem? hfile)
    rw [htext, ← join_eq_iff_dvd (hrests.queues howns.nodup idx file hfile) ((hfits idx).2 trivial)
      hwrote fun batch hbatch => written_of_not_fails hfine batch (List.mem_of_mem_filter hbatch)]
    exact String.append_right_inj _
  constructor
  · intro hcomplete idx
    have hlt : idx.val < logFiles.length := by
      rw [hfiles]
      exact idx.isLt
    exact (hiff idx _ (List.getElem?_eq_getElem hlt)).mp (hcomplete idx _ (List.getElem?_eq_getElem hlt))
  · exact fun hdvd idx file hfile => (hiff idx file hfile).mpr (hdvd idx)

end Logs

/-- The sensor thread has returned because it saw Quit, after so many readings, with this log. -/
def hasShutDown (logBufferSize turns samples : Nat) (log : String) (t : List (Event Act.Ans))
    (s : Sys Act Act.Ans Controller) : Bool :=
  ((sensorListen ℚ (.buffered logBufferSize) .release 0 [⟨0, 0⟩] turns).run.replay
    (history 0 t)).any (Prog.returns fun r => decide (r = .ok .quit)) &&
  (history 0 t).all (!sensorLogFails ·) &&
  decide (((record 1 (history 0 t)).ofSensor 0).length = samples) &&
  decide (s.shared.sensorLogs ⟨0, 0⟩ = log)

/-- A run of the stand: the sensor thread makes so many steps, then Quit is set, and the thread
returns. -/
theorem exists_shutdown (logBufferSize turns steps samples : Nat) (log : String)
    (h : (((controller (.buffered logBufferSize)).runChecked (fun _ _ _ => true)
      (List.replicate steps (0, World.fine) ++ (1, World.fine) :: List.replicate 3 (0, World.fine)) []
      (shuttingDown logBufferSize turns)).any fun r =>
        hasShutDown logBufferSize turns samples log r.1 r.2) = true) :
    ∃ t s, Run (controller (.buffered logBufferSize)) (shuttingDown logBufferSize turns) t s ∧
      Prog.Steps (sensorListen ℚ (.buffered logBufferSize) .release 0 [⟨0, 0⟩] turns).run
        (history 0 t) (.ret (.ok .quit)) ∧
      (∀ c ∈ history 0 t, sensorLogFails c = false) ∧
      ((record 1 (history 0 t)).ofSensor 0).length = samples ∧
      s.shared.sensorLogs ⟨0, 0⟩ = log := by
  obtain ⟨t, s, hrun, hp⟩ := exists_guardedRun (M := controller (.buffered logBufferSize))
    (G := fun _ _ _ => True) (fun _ _ _ _ => trivial) _ h
  simp only [hasShutDown, Bool.and_eq_true, decide_eq_true_eq, List.all_eq_true,
    Bool.not_eq_true'] at hp
  obtain ⟨⟨⟨hreplay, hfine⟩, hsamples⟩, hlog⟩ := hp
  obtain ⟨a, hs, ha⟩ := exists_returns hreplay
  obtain rfl := of_decide_eq_true ha
  exact ⟨t, s, hrun.run, hs, hfine, hsamples, hlog⟩

/-- **Readings in a buffer are lost**: the buffer holds 256, and one reading is made before Quit is
seen. -/
theorem buffered_reading_lost : ∃ t s,
    Run (controller (.buffered 256)) (shuttingDown 256 2) t s ∧
    Prog.Steps (sensorListen ℚ (.buffered 256) .release 0 [⟨0, 0⟩] 2).run (history 0 t)
      (.ret (.ok .quit)) ∧
    (∀ c ∈ history 0 t, sensorLogFails c = false) ∧
    ¬ LogsComplete ℚ (.oneSensor 10 (some 1)) [⟨0, 0⟩] (record 1 (history 0 t))
      (shuttingDown 256 2).shared s.shared := by
  obtain ⟨t, s, hrun, hs, hfine, hsamples, hlog⟩ := exists_shutdown 256 2 15 1 ""
    (by decide +kernel)
  refine ⟨t, s, hrun, hs, hfine, fun hcomplete => ?_⟩
  have hempty := hcomplete SensorGroup.theSensor ⟨0, 0⟩ rfl
  rw [hlog] at hempty
  have hnil := sensorLines_eq_empty (String.append_eq_left_iff.mp hempty.symm)
  have hlen := congrArg List.length hnil
  rw [List.length_map] at hlen
  exact absurd (hlen.symm.trans hsamples) (by decide)

/-- Two readings, with a buffer of two. -/
theorem full_buffer_complete : ∃ t s,
    Run (controller (.buffered 2)) (shuttingDown 2 3) t s ∧
    ((record 1 (history 0 t)).ofSensor 0).length = 2 ∧
    LogsComplete ℚ (.oneSensor 10 (some 1)) [⟨0, 0⟩] (record 1 (history 0 t))
      (shuttingDown 2 3).shared s.shared := by
  obtain ⟨t, s, hrun, hs, hfine, hsamples, -⟩ := exists_shutdown 2 3 30 2
    "0,0,0\n0,0,0\n" (by decide +kernel)
  refine ⟨t, s, hrun, hsamples, (shutdown_loses_nothing_iff ℚ (.buffered 2) .release 0 [⟨0, 0⟩]
    (.oneSensor 10 (some 1)) 0 3 (shuttingDown 2 3) rfl rfl (ownsFiles_shuttingDown 2 3) t s hrun hs
    hfine).mpr ?_⟩
  intro idx
  obtain rfl : idx = SensorGroup.theSensor := Subsingleton.elim (α := Fin 1) _ _
  exact dvd_of_eq (hsamples.symm)

end Slonk
