/-
# Identifiers on the wire

`run` starts a thread for each sensor group, and gives it the index of the group as a `u8`; the
thread uses that number to find its group, beside the log files it was given, and sends it in each
message.  The index of a sensor in its group becomes a `u8` on the way into a message.  `parse`
accepts any number of groups, and groups of any size, and both casts drop what does not fit.

So the identifiers are the indices as long as they fit.  That is all of it: with more than 256 groups,
or sensors in a group, there is a thread that sends an identifier of another sensor, as soon as it
sends anything (`ids_true_iff`).

* *Sufficient.*  The record of `sensor_listen` (`Sampling.lean`) has the indices themselves, and says
  what is read, logged and sent in terms of them.
* *Necessary.*  A thread whose periods are defined may come to a message with a reading of every one of
  its sensors (`mayPerform_sensorListen`).
-/
import Slonk.Concurrency.May
import Slonk.SensorLogs
import Slonk.Transmissions
import Slonk.Shutdown

namespace Slonk

open Concurrency

/-! ## 1. The listeners -/

/-- The listener that a call has spawned. -/
def spawnedBy : Call ServerOp.Ans → Option Thread
  | ⟨.spawnListener thread, _⟩ => some thread
  | _ => none

/-- The listeners: the thread of each sensor group, the one of the drivers, and the heartbeat. -/
def listeners (config : Configuration) (turns : Nat) : List Thread :=
  (config.sensorGroups.zipIdx.map fun (group, groupId) =>
    .sensorListen (UInt8.ofNat groupId) (group.logFiles groupId) turns) ++
    [.driverStatusListen turns, .heartbeat turns]

section Listeners

variable {F : Type} [F64 F] {config : Configuration} {profile : Profile}
  {fromSlice : List UInt8 → Option Command} {turns : Nat} {lines : List Bool}
  {t : List (Event ServerOp.Ans)} {s : Sys ServerOp ServerOp.Ans Controller}

/-- The thread of a group. -/
theorem listeners_getElem? {g : Nat} {group : SensorGroup}
    (hgroup : config.sensorGroups[g]? = some group) : (listeners config turns)[g]?
      = some (.sensorListen (UInt8.ofNat g) (group.logFiles g) turns) := by
  have hlt : g < config.sensorGroups.length := (List.getElem?_eq_some_iff.mp hgroup).1
  rw [listeners, List.getElem?_append_left (by simpa using hlt), List.getElem?_map,
    List.getElem?_zipIdx, hgroup]
  simp

/-- The listeners spawned so far, which are the first of `listeners`. -/
def spawning (config : Configuration) (turns : Nat) :
    Protocol ServerOp ServerOp.Ans (List Thread) where
  permits γ
    | .spawnListener thread => γ ++ [thread] <+: listeners config turns
    | _ => True
  aborts _ := True
  next γ c := γ ++ (spawnedBy c).toList

theorem spawning_after (γ : List Thread) (h : List (Call ServerOp.Ans)) :
    (spawning config turns).after γ h = γ ++ h.filterMap spawnedBy := by
  induction h generalizing γ with
  | nil => simp
  | cons c h ih =>
    rw [Protocol.after_cons, ih]
    cases hc : spawnedBy c with
    | none => simp [spawning, hc]
    | some thread => simp [spawning, hc]

/-- The operations that spawn no listener. -/
def ServerOp.SpawnsNone (o : ServerOp) : Prop := ∀ thread, o ≠ .spawnListener thread

theorem spawnedBy_eq_none {c : Call ServerOp.Ans} (h : c.op.SpawnsNone) : spawnedBy c = none := by
  unfold spawnedBy
  split
  · exact absurd rfl (h _)
  · rfl

theorem ofActs_spawnsNone {α : Type} (p : Prog Act Act.Ans α) : (ofActs p).All ServerOp.SpawnsNone := by
  have hp : p.All fun _ => True := by
    induction p with
    | ret a => trivial
    | panic => trivial
    | op o k ih => exact ⟨trivial, ih⟩
  exact hp.expand fun _ _ => ⟨nofun, fun _ => trivial⟩

theorem server_fork_spawnsNone {o : ServerOp} {p : Prog ServerOp ServerOp.Ans Unit}
    (h : (server F config profile fromSlice).fork o = some p) : p.All ServerOp.SpawnsNone := by
  cases o with
  | act a =>
    obtain ⟨q, -, rfl⟩ := Option.map_eq_some_iff.mp h
    exact ofActs_spawnsNone q
  | spawnListener thread =>
    obtain rfl := Option.some.inj h
    exact ofActs_spawnsNone _
  | bind => cases h
  | localAddr => cases h

/-- So many more are spawned. -/
def Spawned (γ threads : List Thread) (r : Except RunError Unit) (γ' : List Thread) : Prop :=
  r = .ok () ∧ γ' = γ ++ threads

theorem follows_spawn {γ : List Thread} {thread : Thread}
    (h : γ ++ [thread] <+: listeners config turns) :
    (Serving.spawn thread).run.Follows (spawning config turns) (fun _ _ => True) γ
      (Spawned γ [thread]) :=
  ⟨h, fun _ _ => ⟨rfl, rfl⟩⟩

/-- After a part that spawns listeners. -/
theorem follows_spawned {α : Type} {γ threads : List Thread} {p : Serving Unit}
    {f : Unit → Serving α} {Q : Except RunError α → List Thread → Prop}
    (hp : p.run.Follows (spawning config turns) (fun _ _ => True) γ (Spawned γ threads))
    (hf : (f ()).run.Follows (spawning config turns) (fun _ _ => True) (γ ++ threads) Q) :
    (p >>= f).run.Follows (spawning config turns) (fun _ _ => True) γ Q := by
  refine Fallible.follows_bind hp ?_ ?_
  · rintro _ _ ⟨-, rfl⟩
    exact hf
  · rintro e γ' ⟨he, -⟩
    cases he

/-- The loop over the groups, by induction on those to come. -/
theorem follows_forM {α : Type} {thread : α → Thread} : ∀ (groups : List α) {γ : List Thread},
    γ ++ groups.map thread <+: listeners config turns →
      (groups.forM fun group => Serving.spawn (thread group)).run.Follows (spawning config turns)
        (fun _ _ => True) γ (Spawned γ (groups.map thread))
  | [], γ, _ => ⟨rfl, (List.append_nil γ).symm⟩
  | group :: groups, γ, h => by
    have hcons : γ ++ (group :: groups).map thread
        = (γ ++ [thread group]) ++ groups.map thread := by simp
    unfold Spawned
    rw [hcons] at h ⊢
    exact follows_spawned (follows_spawn ((List.prefix_append _ _).trans h)) (follows_forM groups h)

theorem follows_spawnListeners :
    (spawnListeners config turns).run.Follows (spawning config turns) (fun _ _ => True) []
      (Spawned [] (listeners config turns)) := by
  unfold Spawned
  rw [List.nil_append]
  refine follows_spawned (follows_forM _ (List.prefix_append _ _)) ?_
  refine follows_spawned (follows_spawn ?_) ?_
  · exact ⟨[.heartbeat turns], by simp [listeners]⟩
  · refine (follows_spawn ⟨[], by simp [listeners]⟩).mono ?_
    rintro r γ' ⟨hr, rfl⟩
    exact ⟨hr, by simp [listeners]⟩

/-- **The closure spawns the listeners in this order**, as far as it comes. -/
theorem follows_scopeClosure (config : Configuration) (profile : Profile)
    (fromSlice : List UInt8 → Option Command) (turns : Nat) :
    (scopeClosure config profile fromSlice turns).run.Follows (spawning config turns)
      (fun _ _ => True) [] fun _ _ => True := by
  refine follows_spawned follows_spawnListeners ?_
  have hlog : ∀ level message, (Serving.log level message).run.All ServerOp.SpawnsNone :=
    fun _ _ => ofActs_spawnsNone _
  refine (Prog.All.follows (P := ServerOp.SpawnsNone) ?_ ?_ ?_ trivial).mono fun _ _ _ => trivial
  · refine Fallible.all_bind (hlog _ _) fun _ => Fallible.all_bind (hlog _ _) fun _ => ?_
    refine Fallible.all_bind ⟨nofun, fun _ => trivial⟩ fun _ => ?_
    refine Fallible.all_bind ⟨nofun, fun _ => trivial⟩ fun address => ?_
    refine Fallible.all_bind (hlog _ _) fun _ => Fallible.all_bind (hlog _ _) fun _ => ?_
    exact ofActs_spawnsNone _
  · intro o ho
    cases o with
    | spawnListener thread => exact absurd rfl (ho thread)
    | _ => trivial
  · intro o a ho
    simp [spawning, spawnedBy_eq_none (c := ⟨o, some a⟩) ho]

/-- The other threads spawn no listener. -/
theorem spawnedBy_of_tid_ne
    (hrun : Run (server F config profile fromSlice) (serverOf config profile fromSlice turns lines) t s)
    {e : Event ServerOp.Ans} (he : e ∈ t) (htid : e.tid ≠ 0) : spawnedBy e.call = none := by
  obtain ⟨t₁, t₂, rfl⟩ := List.append_of_mem he
  obtain ⟨m, m', hmoment⟩ := hrun.moment
  obtain ⟨k, hk, -⟩ := hmoment.step.self
  obtain ⟨p, hsteps, hp | ⟨e', -, hfork⟩⟩ := hmoment.before.origin hk
  · have hlt := (List.getElem?_eq_some_iff.mp hp).1
    exact absurd (Nat.lt_one_iff.mp hlt) htid
  · exact spawnedBy_eq_none (hsteps.all (server_fork_spawnsNone hfork)).2.1

/-- **The listeners are spawned in their order**, in every run of the server. -/
theorem listeners_of_run
    (hrun : Run (server F config profile fromSlice) (serverOf config profile fromSlice turns lines) t s) :
    t.filterMap (fun e => spawnedBy e.call) <+: listeners config turns := by
  have hown : t.filterMap (fun e => spawnedBy e.call) = (history 0 t).filterMap spawnedBy := by
    rw [history, List.filterMap_filterMap]
    refine List.filterMap_congr fun e he => ?_
    split
    · rfl
    · rename_i htid
      exact spawnedBy_of_tid_ne hrun he htid
  obtain ⟨q, -, hsteps⟩ := hrun.steps (i := 0) rfl
  have hfollows := (follows_scopeClosure config profile fromSlice turns).discard (Q := fun _ _ => True)
  have hprefix := hfollows.invariant (I := (· <+: listeners config turns)) hsteps
    (fun _ _ _ _ => trivial) (List.nil_prefix) ?_
  · rw [spawning_after] at hprefix
    rw [hown]
    exact hprefix
  · intro γ c hpermits hγ
    cases hc : spawnedBy c with
    | none => simpa [spawning, hc] using hγ
    | some thread =>
      unfold spawnedBy at hc
      split at hc
      · obtain rfl := Option.some.inj hc
        exact hpermits
      · cases hc

end Listeners

/-! ## 2. True identifiers -/

/-- An entry of a message is a sample, under the index of its sensor. -/
structure SensorReading.Names (r : SensorReading) (s : Sample) : Prop where
  sensorId : r.sensorId.toNat = s.sensor
  reading : r.reading = s.reading
  time : r.time = s.time

/-- **The identifiers of the thread of the `g`-th group are true**, after these calls: it reads the
sensors of the group, each in its turn; it writes to the log files of the group; where it has come to
the head of its loop, or left it, the file of each sensor was given samples of that sensor, from the
first on; and it sends the latest samples, with the index of the group and of each sensor. -/
structure TrueIds (F : Type) [F64 F] (g : Nat) (group : SensorGroup) (groupId : UInt8)
    (h : List (Call Act.Ans)) (p : Prog Act Act.Ans (Except RunError Exit)) : Prop where
  sampled : ∀ before adc channel answer after, h = before ++ ⟨.readAdc adc channel, answer⟩ :: after →
    (record group.size before).At group adc channel
  logged : ∀ before file rows answer after,
    h = before ++ ⟨.writeSensorLog file rows, answer⟩ :: after →
    ∃ idx : Fin group.size, file = ⟨g, idx⟩
  contents : ∀ exit, p = .ret (.ok exit) → ∀ idx : Fin group.size,
    ∃ (parts : List (List Sample)) (rest : List Sample),
      (record group.size h).ofSensor idx = parts.flatten ++ rest ∧
      ((record group.size h).batchesOf ⟨g, idx⟩).map Batch.rows
        = parts.map (·.map (Sample.row F (group.sensor idx)))
  sent : ∀ before message answer after, h = before ++ ⟨.op (.send message), answer⟩ :: after →
    ∃ readings, message = .sensorValue groupId readings ∧ groupId.toNat = g ∧
      List.Forall₂ SensorReading.Names readings
        (Record.latest group.size (record group.size before).due)

/-- A sample of this sensor was sent under these identifiers. -/
def SentAs (size : Nat) (h : List (Call Act.Ans)) (groupId sensorId : UInt8) (sensor : Nat) : Prop :=
  ∃ before readings answer after,
    h = before ++ ⟨.op (.send (.sensorValue groupId readings)), answer⟩ :: after ∧
    ∃ r s, (r, s) ∈ readings.zip (Record.latest size (record size before).due) ∧
      r.sensorId = sensorId ∧ s.sensor = sensor

/-- The thread that `run` spawns for the `g`-th group, after these calls. -/
structure Listening (F : Type) [F64 F] (config : Configuration) (profile : Profile) (turns g : Nat)
    (group : SensorGroup) (groupId : UInt8) (h : List (Call Act.Ans))
    (p : Prog Act Act.Ans (Except RunError Exit)) : Prop where
  group : config.sensorGroups[g]? = some group
  thread : ∃ logFiles,
    (listeners config turns)[g]? = some (.sensorListen groupId logFiles turns) ∧
    Prog.Steps (sensorListen F config profile groupId logFiles turns).run h p

/-- **Identifiers on the wire are the true indices**, in either build, of every thread at any moment;
and no two sensors share a pair of them. -/
structure IdsTrue (F : Type) [F64 F] (config : Configuration) : Prop where
  ids : ∀ profile turns g group groupId h p,
    Listening F config profile turns g group groupId h p → TrueIds F g group groupId h p
  distinct : ∀ profile turns g g' group group' groupId groupId' h h' p p',
    Listening F config profile turns g group groupId h p →
    Listening F config profile turns g' group' groupId' h' p' →
    ∀ sensorId idx idx', SentAs group.size h groupId sensorId idx →
      SentAs group'.size h' groupId' sensorId idx' → groupId = groupId' → g = g' ∧ idx = idx'

/-- The frequencies of the group are not zero, so its periods are defined. -/
structure SensorGroup.Ticks (group : SensorGroup) : Prop where
  standby : group.frequencyStandby ≠ 0
  ignition : group.frequencyIgnition ≠ 0
  transmission : group.frequencyTransmission ≠ 0

/-- **The indices fit**: of each thread whose periods are defined.  The group it uses is the one its
identifier finds. -/
def IdsFit (config : Configuration) : Prop :=
  ∀ g < config.sensorGroups.length, ∀ group, config.sensorGroups[g % 256]? = some group →
    group.Ticks → g < 256 ∧ group.size ≤ 256

/-- Where all periods are defined: there are at most 256 groups, of at most 256 sensors each. -/
theorem idsFit_iff {config : Configuration} (h : ∀ group ∈ config.sensorGroups, group.Ticks) :
    IdsFit config ↔ config.sensorGroups.length ≤ 256 ∧
      ∀ group ∈ config.sensorGroups, group.size ≤ 256 := by
  constructor
  · intro hfit
    have hlength : config.sensorGroups.length ≤ 256 := by
      by_contra hgt
      have hlt : 256 % 256 < config.sensorGroups.length := by omega
      have hget := List.getElem?_eq_getElem hlt
      have := (hfit 256 (by omega) _ hget (h _ (List.mem_of_getElem? hget))).1
      omega
    refine ⟨hlength, fun group hgroup => ?_⟩
    obtain ⟨g, hget⟩ := List.getElem?_of_mem hgroup
    have hlt := (List.getElem?_eq_some_iff.mp hget).1
    refine (hfit g hlt group ?_ (h group hgroup)).2
    rwa [Nat.mod_eq_of_lt (by omega)]
  · rintro ⟨hlength, hsizes⟩ g hg group hget -
    exact ⟨by omega, hsizes group (List.mem_of_getElem? hget)⟩

section Periods

variable {group : SensorGroup}

theorem SensorGroup.Ticks.periods (h : group.Ticks) : ∃ periods, group.periods.value = some periods := by
  unfold SensorGroup.periods
  rw [Duration.divide_of_ne h.standby, Duration.divide_of_ne h.ignition,
    Duration.divide_of_ne h.transmission]
  exact ⟨_, rfl⟩

theorem SensorGroup.ticks_of_periods {periods : Periods} (h : group.periods.value = some periods) :
    group.Ticks := by
  have hdivide : ∀ {n : UInt32} {β : Type} {f : Duration → Checked β} {b : β},
      (Duration.divide oneSecond n >>= f).value = some b →
        n ≠ 0 ∧ (f (oneSecond / n.toNat)).value = some b := by
    intro n β f b hb
    by_cases hn : n = 0
    · subst hn
      cases hb
    · rw [Duration.divide_of_ne hn, Checked.bind_of_value rfl] at hb
      exact ⟨hn, hb⟩
  obtain ⟨hs, h⟩ := hdivide h
  obtain ⟨hi, h⟩ := hdivide h
  obtain ⟨ht, -⟩ := hdivide h
  exact ⟨hs, hi, ht⟩

end Periods

/-! ## 3. Indices that fit -/

section Threads

variable {F : Type} [F64 F] {config : Configuration} {profile : Profile} {turns g : Nat}
  {group : SensorGroup} {groupId : UInt8} {h : List (Call Act.Ans)}
  {p : Prog Act Act.Ans (Except RunError Exit)}

theorem Listening.steps (hl : Listening F config profile turns g group groupId h p) :
    groupId = UInt8.ofNat g ∧ Prog.Steps (sensorListen F config profile (UInt8.ofNat g)
      (group.logFiles g) turns).run h p := by
  obtain ⟨hgroup, logFiles, hthread, hs⟩ := hl
  rw [listeners_getElem? hgroup] at hthread
  cases hthread
  exact ⟨rfl, hs⟩

/-- The log files of a group are those of its sensors. -/
theorem logFiles_getElem? (group : SensorGroup) (g : Nat) (idx : Fin group.size) :
    (group.logFiles g)[idx.val]? = some ⟨g, idx⟩ := by
  simp [SensorGroup.logFiles]

theorem logFiles_nodup (group : SensorGroup) (g : Nat) : (group.logFiles g).Nodup :=
  List.Nodup.map (fun _ _ h => (LogFile.mk.inj h).2) List.nodup_range

/-- What a sensor thread writes to are its log files. -/
theorem mem_logFiles_of_steps {logFiles : List LogFile}
    (hs : Prog.Steps (sensorListen F config profile groupId logFiles turns).run h p)
    {file : LogFile} {rows : List String} {answer : Option (Except Unit Unit)}
    (hc : ⟨.writeSensorLog file rows, answer⟩ ∈ h) : file ∈ logFiles := by
  have hall := (keeps_sensorListen (R := fun _ _ => True) (A := fun _ _ => True)
    (P := fun a => a.Common ∨ a.Senses groupId logFiles) (F := F) (fun _ => .inl)
    (fun _ _ _ => trivial) config profile groupId logFiles (fun _ => .inr) turns).all
  rcases (hs.all hall).1 _ hc with hcommon | hsenses
  · exact hcommon.elim
  · exact hsenses

/-- **A thread whose indices fit** finds its own group. -/
theorem trueIds_of_fits (hgroup : config.sensorGroups[g]? = some group) (hg : g < 256)
    (hsize : group.size ≤ 256)
    (hs : Prog.Steps (sensorListen F config profile (UInt8.ofNat g) (group.logFiles g) turns).run h
      p) : TrueIds F g group (UInt8.ofNat g) h p := by
  have hgroupId : (UInt8.ofNat g).toNat = g := UInt8.toNat_ofNat_of_lt' hg
  rw [← hgroupId] at hgroup
  have hrecorded : Recorded F profile group (UInt8.ofNat g) group.transmissionPeriod .start
      (sensorListen F config profile (UInt8.ofNat g) (group.logFiles g) turns).run _ :=
    recorded_sensorListen hgroup turns
  constructor
  · rintro before adc channel answer after rfl
    exact permits_of_recorded hrecorded hs
  · rintro before file rows answer after rfl
    have hmem := mem_logFiles_of_steps hs (List.mem_append_right _ List.mem_cons_self)
    obtain ⟨idx, hidx, rfl⟩ := List.mem_map.mp hmem
    exact ⟨⟨idx, List.mem_range.mp hidx⟩, rfl⟩
  · rintro exit rfl idx
    obtain ⟨locals, hrests, -⟩ := returned_of_recorded hrecorded hs
    obtain ⟨parts, rest, hof, hrows, -⟩ :=
      hrests.queues (logFiles_nodup group g) idx _ (logFiles_getElem? group g idx)
    exact ⟨parts, rest, hof, hrows⟩
  · rintro before message answer after rfl
    refine ⟨_, permits_of_recorded hrecorded hs, hgroupId, ?_⟩
    rw [List.forall₂_map_left_iff, List.forall₂_same]
    intro s hmem
    refine ⟨UInt8.toNat_ofNat_of_lt' ?_, rfl, rfl⟩
    exact (mem_latest.mp hmem).1.trans_le hsize

/-- **A thread whose periods are not defined** reads the clock and panics. -/
theorem run_of_not_ticks {logFiles : List LogFile}
    (hgroup : config.sensorGroups[groupId.toNat]? = some group) (hticks : ¬ group.Ticks) :
    (sensorListen F config profile groupId logFiles turns).run
      = .op (.op .now) fun _ => .panic := by
  have hperiods : group.periods.value = none := by
    cases hvalue : group.periods.value with
    | none => rfl
    | some periods => exact absurd (SensorGroup.ticks_of_periods hvalue) hticks
  unfold sensorListen
  rw [hgroup]
  dsimp only
  rw [hperiods]
  rfl

/-- So it does nothing under any identifier. -/
theorem trueIds_of_not_ticks {logFiles : List LogFile} {group' : SensorGroup}
    (hgroup : config.sensorGroups[groupId.toNat]? = some group') (hticks : ¬ group'.Ticks)
    (hs : Prog.Steps (sensorListen F config profile groupId logFiles turns).run h p) :
    TrueIds F g group groupId h p := by
  rw [run_of_not_ticks hgroup hticks] at hs
  have hcalls : ∀ c ∈ h, c.op = .op .now :=
    (hs.all (P := (· = .op .now)) ⟨rfl, fun _ => trivial⟩).1
  have hp : ∀ r, p ≠ .ret r := by
    rintro r rfl
    cases hs with
    | @head o k a h _ hs =>
      cases a with
      | none => cases (hs.of_finished trivial).2
      | some time => cases (hs.of_finished trivial).2
  have hno : ∀ {before after c}, h = before ++ c :: after → c.op = .op .now := by
    rintro before after c rfl
    exact hcalls c (List.mem_append_right _ List.mem_cons_self)
  constructor
  · intro before adc channel answer after heq
    cases hno heq
  · intro before file rows answer after heq
    cases hno heq
  · intro exit heq
    exact absurd heq (hp _)
  · intro before message answer after heq
    cases hno heq

theorem trueIds_of_idsFit (hfit : IdsFit config)
    (hl : Listening F config profile turns g group groupId h p) : TrueIds F g group groupId h p := by
  obtain ⟨rfl, hs⟩ := hl.steps
  have hlt : g < config.sensorGroups.length := (List.getElem?_eq_some_iff.mp hl.group).1
  have hmod : (UInt8.ofNat g).toNat = g % 256 := UInt8.toNat_ofNat'
  obtain ⟨group', hfound⟩ : ∃ group', config.sensorGroups[g % 256]? = some group' :=
    ⟨_, List.getElem?_eq_getElem ((Nat.mod_le g 256).trans_lt hlt)⟩
  by_cases hticks : group'.Ticks
  · obtain ⟨hg, hsize⟩ := hfit g hlt _ hfound hticks
    rw [Nat.mod_eq_of_lt hg, hl.group] at hfound
    obtain rfl := Option.some.inj hfound
    exact trueIds_of_fits hl.group hg hsize hs
  · rw [← hmod] at hfound
    exact trueIds_of_not_ticks hfound hticks hs

/-- A sample that was sent by a thread with true identifiers was sent under its indices. -/
theorem TrueIds.sentAs (ht : TrueIds F g group groupId h p) {groupId' sensorId : UInt8} {idx : Nat}
    (hsent : SentAs group.size h groupId' sensorId idx) :
    groupId'.toNat = g ∧ sensorId.toNat = idx := by
  obtain ⟨before, readings, answer, after, heq, r, s, hmem, rfl, rfl⟩ := hsent
  obtain ⟨readings', hmessage, hgroupId, hnames⟩ := ht.sent _ _ _ _ heq
  cases hmessage
  exact ⟨hgroupId, ((List.forall₂_iff_zip.mp hnames).2 hmem).sensorId⟩

theorem idsTrue_of_idsFit (hfit : IdsFit config) : IdsTrue F config where
  ids _ _ _ _ _ _ _ hl := trueIds_of_idsFit hfit hl
  distinct := by
    intro profile turns g g' group group' groupId groupId' h h' p p' hl hl' sensorId idx idx' hsent
      hsent' heq
    obtain ⟨hg, hidx⟩ := (trueIds_of_idsFit hfit hl).sentAs hsent
    obtain ⟨hg', hidx'⟩ := (trueIds_of_idsFit hfit hl').sentAs hsent'
    exact ⟨by rw [← hg, ← hg', heq], hidx.symm.trans hidx'⟩

end Threads

/-! ## 4. A message with a reading of every sensor -/

section Messages

variable {F : Type} [F64 F] {config : Configuration} {group : SensorGroup} {groupId : UInt8}
  {logFiles : List LogFile}

theorem may_note (guards : List Lock) (level : LogLevel) (message : UserMessage) :
    Fallible.May (Routine.note guards level message) fun _ => True :=
  ⟨false, .ok (), (), (), rfl, trivial⟩

theorem may_readAdc {sensor : Sensor} (h : sensor.channel < 8) :
    Fallible.May (readAdc sensor) (· = .ok 0) := by
  unfold readAdc
  rw [if_neg (UInt8.not_le.mpr h)]
  exact .guarded false (.call (.ok 0) rfl) ()

theorem may_checkRange (sensor : Sensor) (avg : F) :
    Fallible.May (checkRange sensor avg) fun _ => True := by
  unfold checkRange
  split
  · exact Fallible.May.bind ((may_note _ _ _).mono fun _ _ => .call () trivial)
  · exact .pure trivial

/-- In a release build no average panics. -/
theorem rollingAvg_release (sensor : Sensor) (average calibratedValue : F) :
    ∃ avg, (sensor.rollingAvg .release average calibratedValue).value = some avg := by
  unfold Sensor.rollingAvg subtractU32
  split
  · exact ⟨_, rfl⟩
  · exact ⟨_, rfl⟩

/-- These sensors, at least, have a reading more to transmit. -/
def Locals.ReadMore {n : Nat} (idxs : List (Fin n)) (locals locals' : Locals F n) : Prop :=
  ∀ j, j ∈ idxs ∨ (locals.transmissionReadings.get j).isSome →
    (locals'.transmissionReadings.get j).isSome

theorem may_sampleLocked {idx : Fin group.size} (h : (group.sensor idx).channel < 8)
    (locals : Locals F group.size) :
    Fallible.May (sampleLocked .release group idx locals) (locals.ReadMore [idx]) := by
  refine Fallible.May.bind ((may_readAdc h).mono ?_)
  rintro _ rfl
  refine Fallible.May.bind (.call (0 : Nat) ?_)
  obtain ⟨avg, havg⟩ := rollingAvg_release (group.sensor idx)
    ((locals.record idx 0 0 ((group.sensor idx).calibrate 0)).rollingAverages.get idx)
    ((group.sensor idx).calibrate 0)
  dsimp only
  rw [havg]
  refine Fallible.May.bind ((may_checkRange _ avg).mono fun _ _ => .pure ?_)
  intro j hj
  simp only [Locals.record, get_set]
  split
  · rfl
  · rename_i hne
    refine hj.resolve_left fun hmem => hne ?_
    exact (List.mem_singleton.mp hmem).symm

theorem may_sample {idx : Fin group.size} (h : (group.sensor idx).channel < 8)
    (locals : Locals F group.size) :
    Fallible.May (sample .release group locals idx) (locals.ReadMore [idx]) := by
  refine Fallible.May.bind (Fallible.May.guarded false ?_ ())
  refine Fallible.May.bind ((may_sampleLocked h locals).mono fun locals' h' => ?_)
  exact .pure (.pure h')

/-- **A round** may read every sensor. -/
theorem may_sweep (h : ∀ idx, (group.sensor idx).channel < 8) :
    ∀ (rest : List (Fin group.size)) (locals : Locals F group.size),
      Fallible.May (rest.foldlM (sample .release group) locals) (locals.ReadMore rest)
  | [], locals => .pure fun j hj => hj.resolve_left (by simp)
  | idx :: rest, locals => by
    rw [List.foldlM_cons]
    refine Fallible.May.bind ((may_sample (h idx) locals).mono ?_)
    intro locals₁ hread₁
    refine (may_sweep h rest locals₁).mono ?_
    intro locals₂ hread₂ j hj
    refine hread₂ j ?_
    by_cases hrest : j ∈ rest
    · exact .inl hrest
    · refine .inr (hread₁ j (hj.imp_left fun hmem => ?_))
      simpa [hrest] using hmem

/-- It hands over a message with so many readings. -/
def SendsReadings (groupId : UInt8) (n : Nat) (a : Act) : Prop :=
  ∃ readings, a = .op (.send (.sensorValue groupId readings)) ∧ readings.length = n

omit [F64 F] in
/-- **The transmission**, when its time has come and there is a dashboard. -/
theorem mayPerform_transmit {locals : Locals F group.size}
    (h : ∀ j, (locals.transmissionReadings.get j).isSome) (period : Duration) :
    (transmit group groupId period locals).run.MayPerform (SendsReadings groupId group.size) := by
  have hreadings : locals.readings.length = group.size := by
    have hlength : locals.readings.length = (List.finRange group.size).length := by
      rw [Locals.readings, List.filterMap_length_eq_length]
      intro idx _
      rw [Option.isSome_map]
      exact h idx
    rw [hlength, List.length_finRange]
  have hdue : locals.lastTransmissionTime + period + 1 > locals.lastTransmissionTime + period :=
    Nat.lt_succ_self _
  refine Fallible.May.performs (.call (locals.lastTransmissionTime + period + 1) ?_)
  rw [if_pos hdue]
  have htarget : Fallible.May Routine.hasTarget (· = true) :=
    .guarded false (.attempt (.ok true) rfl rfl) ()
  refine Fallible.May.performs (htarget.mono ?_)
  rintro _ rfl
  refine Fallible.mayPerform_bind ?_ _
  exact .inr ⟨false, .inr ⟨false, .inl ⟨_, rfl, hreadings⟩⟩⟩

/-- **A thread whose periods are defined** may come to a message with a reading of every sensor. -/
theorem mayPerform_sensorListen (hgroup : config.sensorGroups[groupId.toNat]? = some group)
    (hticks : group.Ticks) (hchannel : ∀ idx, (group.sensor idx).channel < 8) :
    (sensorListen F config .release groupId logFiles 1).run.MayPerform
      (SendsReadings groupId group.size) := by
  obtain ⟨periods, hperiods⟩ := hticks.periods
  unfold sensorListen
  rw [hgroup]
  refine Fallible.May.performs (.call (0 : Nat) ?_)
  rw [hperiods]
  dsimp only
  refine Fallible.mayPerform_bind (Fallible.mayPerform_bind ?_ _) _
  have hstatus : Fallible.May Routine.status (· = .standby) :=
    .guarded false (.attempt (.ok .standby) rfl rfl) ()
  refine Fallible.May.performs (hstatus.mono ?_)
  rintro _ rfl
  rw [if_neg (by decide)]
  refine Fallible.May.performs ((may_sweep hchannel _ _).mono ?_)
  intro locals hread
  exact Fallible.mayPerform_bind
    (mayPerform_transmit (fun j => hread j (.inl (List.mem_finRange j))) _) _

/-- The sensors of some samples are their identifiers. -/
theorem sensors_of_names {readings : List SensorReading} {samples : List Sample}
    (h : List.Forall₂ SensorReading.Names readings samples) :
    samples.map Sample.sensor = readings.map fun r => r.sensorId.toNat := by
  induction h with
  | nil => rfl
  | cons hnames _ ih => rw [List.map_cons, List.map_cons, ih, hnames.sensorId]

/-- **True identifiers fit**: the thread names its group with what is left of its index, and there are
no more names for its sensors than 256. -/
theorem idsFit_of_idsTrue (haccepted : config.Accepted) (h : IdsTrue F config) : IdsFit config := by
  intro g hlt group hfound hticks
  have hmod : (UInt8.ofNat g).toNat = g % 256 := UInt8.toNat_ofNat'
  have hchannel : ∀ idx, (group.sensor idx).channel < 8 := fun idx =>
    (haccepted.sensor_valid (List.mem_of_getElem? hfound) (List.get_mem _ idx)).2
  obtain ⟨own, hown⟩ : ∃ own, config.sensorGroups[g]? = some own :=
    ⟨_, List.getElem?_eq_getElem hlt⟩
  rw [← hmod] at hfound
  have hperforms : (sensorListen F config .release (UInt8.ofNat g) (own.logFiles g) 1).run.MayPerform
      (SendsReadings (UInt8.ofNat g) group.size) :=
    mayPerform_sensorListen hfound hticks hchannel
  obtain ⟨before, o, k, hs, readings, rfl, hlength⟩ := hperforms.steps
  have hl : Listening F config .release 1 g own (UInt8.ofNat g)
      (before ++ [⟨.op (.send (.sensorValue (UInt8.ofNat g) readings)), some (.ok ())⟩])
      (k (.ok ())) :=
    ⟨hown, own.logFiles g, listeners_getElem? hown, hs.tail (some (.ok ()))⟩
  obtain ⟨readings', hmessage, hgroupId, hnames⟩ :=
    (h.ids _ _ _ _ _ _ _ hl).sent before _ _ [] rfl
  cases hmessage
  have hg : g < 256 := by
    rw [← hgroupId]
    exact UInt8.toNat_lt _
  refine ⟨hg, ?_⟩
  rw [hgroupId, hown] at hfound
  obtain rfl := Option.some.inj hfound
  -- the names of the sensors are different numbers below 256
  generalize hlatest : Record.latest own.size (record own.size before).due = latest at hnames
  have hsensors : (latest.map Sample.sensor).Nodup := by
    rw [← hlatest, latest_sensors]
    exact List.nodup_range.filter _
  have hnamed : latest.map Sample.sensor ⊆ List.range 256 := by
    rw [sensors_of_names hnames]
    intro sensor hsensor
    obtain ⟨r, -, rfl⟩ := List.mem_map.mp hsensor
    exact List.mem_range.mpr r.sensorId.toNat_lt
  have hle := (hsensors.subperm hnamed).length_le
  rwa [List.length_map, ← hnames.length_eq, hlength, List.length_range] at hle

end Messages

/-! ## 5. The condition -/

/-- **Identifiers on the wire are the true indices exactly if the indices fit.**  Of the threads: in
every run of the server the listeners that are spawned are the first of `listeners`, in this order. -/
theorem ids_true_iff (F : Type) [F64 F] (config : Configuration) (haccepted : config.Accepted) :
    (IdsTrue F config ↔ IdsFit config) ∧
    ∀ profile fromSlice turns lines t s,
      Run (server F config profile fromSlice) (serverOf config profile fromSlice turns lines) t s →
      t.filterMap (fun e => spawnedBy e.call) <+: listeners config turns :=
  ⟨⟨idsFit_of_idsTrue haccepted, idsTrue_of_idsFit⟩, fun _ _ _ _ _ _ => listeners_of_run⟩

/-- A stand with so many groups of one sensor each. -/
def Configuration.groups (n : Nat) : Configuration :=
  { Configuration.oneSensor 10 none with
    sensorGroups := (List.range n).map fun g =>
      { SensorGroup.oneSensor 10 none with label := toString g } }

theorem ticks_groups (n : Nat) : ∀ group ∈ (Configuration.groups n).sensorGroups, group.Ticks := by
  intro group hgroup
  obtain ⟨g, -, rfl⟩ := List.mem_map.mp hgroup
  exact ⟨nofun, nofun, nofun⟩

/-- Three groups. -/
theorem three_groups_true : IdsTrue ℚ (.groups 3) := by
  refine (ids_true_iff ℚ (.groups 3) (by unfold Configuration.Accepted; decide +kernel)).1.mpr ?_
  rw [idsFit_iff (ticks_groups 3)]
  decide +kernel

/-- **One group too many**: the configuration is accepted, and the thread of the last group uses the
identifier and the sensors of the first. -/
theorem groups_257_not_true :
    Configuration.parse Except.ok (.groups 257) = .ok (.groups 257) ∧ ¬ IdsTrue ℚ (.groups 257) := by
  have haccepted : (Configuration.groups 257).Accepted := by
    unfold Configuration.Accepted
    decide +kernel
  refine ⟨Configuration.bind_ok_iff.mpr ⟨_, rfl, Configuration.bind_ok_iff.mpr ⟨(), haccepted, rfl⟩⟩,
    fun h => ?_⟩
  have hfit := idsFit_of_idsTrue haccepted h
  rw [idsFit_iff (ticks_groups 257)] at hfit
  simp [Configuration.groups] at hfit

end Slonk
