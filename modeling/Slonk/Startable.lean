/-
# When the controller starts

`run` stops at the first directory or file it cannot create, so a label in the configuration can keep
the controller from starting: two sensors of one label in one group, a group and a log of one name, or
a sensor with a slash in its label, whose log would be in a directory that nobody makes.  When nothing
fails for a reason of its own, the start succeeds exactly if there is room for its logs
(`starts_iff_room`).

The directories and the files of a start are a list of steps here, and what is at each place is a kind:
the texts do not matter.
-/
import Slonk.Startup
import Slonk.Concurrency.Serial

namespace Slonk.Startup

open Concurrency

variable {Place : Type}

/-! ## 1. Steps -/

/-- The kinds of entries. -/
inductive Kind
  | directory
  | file
  deriving DecidableEq, Repr

def Entry.kind : Entry → Kind
  | directory => .directory
  | file _ => .file

def Disk.kinds (d : Disk Place) (place : Place) : Option Kind := (d.entries place).map Entry.kind

/-- A step: directories are made, or a file is created, at the end of a path through these
directories. -/
inductive Step (Place : Type)
  | directories (places : List Place)
  | file (parents : List Place) (place : Place)

/-- The files of the steps, and the directories. -/
def filesOf : List (Step Place) → List Place
  | [] => []
  | .directories _ :: steps => filesOf steps
  | .file _ place :: steps => place :: filesOf steps

def directoriesOf : List (Step Place) → List Place
  | [] => []
  | .directories places :: steps => places ++ directoriesOf steps
  | .file _ _ :: steps => directoriesOf steps

/-- Every directory that a file's path leads through is there, or is made before. -/
def Housed (kinds : Place → Option Kind) (steps : List (Step Place)) : Prop :=
  ∀ before parents place after, steps = before ++ .file parents place :: after →
    ∀ parent ∈ parents, kinds parent = some .directory ∨ parent ∈ directoriesOf before

section Steps

variable [DecidableEq Place]

/-- The kinds once directories have been made at these places. -/
def makeKinds (kinds : Place → Option Kind) (places : List Place) (place : Place) : Option Kind :=
  if place ∈ places then (kinds place).or (some .directory) else kinds place

/-- The kinds after these steps, if they can be made. -/
def perform (kinds : Place → Option Kind) : List (Step Place) → Option (Place → Option Kind)
  | [] => some kinds
  | .directories places :: steps =>
    if places.any fun place => kinds place = some .file then none
    else perform (makeKinds kinds places) steps
  | .file parents place :: steps =>
    if parents.all (fun parent => kinds parent = some .directory) && (kinds place).isNone then
      perform (Function.update kinds place (some .file)) steps
    else none

theorem perform_append (kinds : Place → Option Kind) (steps steps' : List (Step Place)) :
    perform kinds (steps ++ steps') = (perform kinds steps).bind fun kinds' => perform kinds' steps' := by
  induction steps generalizing kinds with
  | nil => rfl
  | cons step steps ih =>
    cases step with
    | directories places =>
      simp only [List.cons_append, perform]
      split
      · rfl
      · exact ih _
    | file parents place =>
      simp only [List.cons_append, perform]
      split
      · exact ih _
      · rfl

omit [DecidableEq Place] in
theorem filesOf_append (steps steps' : List (Step Place)) :
    filesOf (steps ++ steps') = filesOf steps ++ filesOf steps' := by
  induction steps with
  | nil => rfl
  | cons step steps ih => cases step <;> simp [filesOf, ih]

/-- **There is room for these steps**: the files go to different places, with nothing there and no
directory to be made there; the directories they go through are there in time; and no directory is to be
made where a file is. -/
structure Room (kinds : Place → Option Kind) (steps : List (Step Place)) : Prop where
  distinct : (filesOf steps).Nodup
  free : ∀ place ∈ filesOf steps, kinds place = none
  apart : ∀ place ∈ filesOf steps, place ∉ directoriesOf steps
  housed : Housed kinds steps
  unblocked : ∀ place ∈ directoriesOf steps, kinds place ≠ some .file

theorem makeKinds_eq_none {kinds : Place → Option Kind} {places : List Place} {place : Place} :
    makeKinds kinds places place = none ↔ kinds place = none ∧ place ∉ places := by
  by_cases hp : place ∈ places
  · cases hk : kinds place <;> simp [makeKinds, hp, hk]
  · simp [makeKinds, hp]

theorem makeKinds_eq_file {kinds : Place → Option Kind} {places : List Place} {place : Place} :
    makeKinds kinds places place = some .file ↔ kinds place = some .file := by
  by_cases hp : place ∈ places
  · cases hk : kinds place <;> simp [makeKinds, hp, hk]
  · simp [makeKinds, hp]

theorem makeKinds_eq_directory {kinds : Place → Option Kind} {places : List Place} {place : Place}
    (h : kinds place ≠ some .file) : makeKinds kinds places place = some .directory ↔
      kinds place = some .directory ∨ place ∈ places := by
  by_cases hp : place ∈ places
  · cases hk : kinds place with
    | none => simp [makeKinds, hp, hk]
    | some kind =>
      cases kind with
      | directory => simp [makeKinds, hp, hk]
      | file => exact absurd hk h
  · simp [makeKinds, hp]

/-- What is made first is there for the rest. -/
theorem housed_directories_iff {kinds : Place → Option Kind} {places : List Place}
    {steps : List (Step Place)} (hplaces : ∀ place ∈ places, kinds place ≠ some .file) :
    Housed kinds (.directories places :: steps) ↔ Housed (makeKinds kinds places) steps := by
  have hparent : ∀ parent (before : List (Step Place)),
      (makeKinds kinds places parent = some .directory ∨ parent ∈ directoriesOf before) ↔
        (kinds parent = some .directory ∨ parent ∈ places ++ directoriesOf before) := by
    intro parent before
    by_cases hfile : kinds parent = some .file
    · have hnot : parent ∉ places := fun hp => hplaces parent hp hfile
      simp [makeKinds, hnot]
    · rw [makeKinds_eq_directory hfile, List.mem_append, or_assoc]
  constructor
  · rintro h before parents place after rfl parent hp
    exact (hparent parent before).mpr
      (h (.directories places :: before) parents place after rfl parent hp)
  · intro h before parents place after heq parent hp
    cases before with
    | nil => cases heq
    | cons step before =>
      obtain ⟨rfl, hrest⟩ := List.cons.inj heq
      exact (hparent parent before).mp (h before parents place after hrest parent hp)

omit [DecidableEq Place] in
/-- A file is no directory for the rest. -/
theorem housed_file_iff {kinds : Place → Option Kind} {parents : List Place} {place : Place}
    {steps : List (Step Place)} : Housed kinds (.file parents place :: steps) ↔
      (∀ parent ∈ parents, kinds parent = some .directory) ∧ Housed kinds steps := by
  constructor
  · intro h
    refine ⟨fun parent hp => ?_, ?_⟩
    · exact (h [] parents place steps rfl parent hp).resolve_right List.not_mem_nil
    · rintro before parents' place' after rfl parent hp
      exact h (.file parents place :: before) parents' place' after rfl parent hp
  · rintro ⟨hfirst, h⟩ before parents' place' after heq parent hp
    cases before with
    | nil =>
      cases heq
      exact Or.inl (hfirst parent hp)
    | cons step before =>
      obtain ⟨rfl, hrest⟩ := List.cons.inj heq
      exact h before parents' place' after hrest parent hp

omit [DecidableEq Place] in
/-- Only directories matter. -/
theorem Housed.congr {kinds kinds' : Place → Option Kind} {steps : List (Step Place)}
    (h : ∀ place, kinds place = some .directory ↔ kinds' place = some .directory) :
    Housed kinds steps ↔ Housed kinds' steps := by
  simp only [Housed, h]

/-- **First directories**: no file is in their way. -/
theorem room_directories_iff {kinds : Place → Option Kind} {places : List Place}
    {steps : List (Step Place)} : Room kinds (.directories places :: steps) ↔
      (∀ place ∈ places, kinds place ≠ some .file) ∧ Room (makeKinds kinds places) steps := by
  constructor
  · rintro ⟨hdistinct, hfree, hapart, hhoused, hunblocked⟩
    have hplaces : ∀ place ∈ places, kinds place ≠ some .file := fun place hp =>
      hunblocked place (List.mem_append_left _ hp)
    refine ⟨hplaces, hdistinct, fun place hp => ?_, fun place hp hd => ?_,
      (housed_directories_iff hplaces).mp hhoused, fun place hd hk => ?_⟩
    · exact makeKinds_eq_none.mpr ⟨hfree place hp, fun hd =>
        hapart place hp (List.mem_append_left _ hd)⟩
    · exact hapart place hp (List.mem_append_right _ hd)
    · exact hunblocked place (List.mem_append_right _ hd) (makeKinds_eq_file.mp hk)
  · rintro ⟨hplaces, hdistinct, hfree, hapart, hhoused, hunblocked⟩
    refine ⟨hdistinct, fun place hp => (makeKinds_eq_none.mp (hfree place hp)).1,
      fun place hp hd => ?_, (housed_directories_iff hplaces).mpr hhoused, fun place hd => ?_⟩
    · rcases List.mem_append.mp hd with hd | hd
      · exact (makeKinds_eq_none.mp (hfree place hp)).2 hd
      · exact hapart place hp hd
    · rcases List.mem_append.mp hd with hd | hd
      · exact hplaces place hd
      · exact fun hk => hunblocked place hd (makeKinds_eq_file.mpr hk)

/-- **First a file**: it has its directories, and nothing is in its place. -/
theorem room_file_iff {kinds : Place → Option Kind} {parents : List Place} {place : Place}
    {steps : List (Step Place)} : Room kinds (.file parents place :: steps) ↔
      (∀ parent ∈ parents, kinds parent = some .directory) ∧ kinds place = none ∧
        Room (Function.update kinds place (some .file)) steps := by
  have hnone : ∀ place', Function.update kinds place (some .file) place' = none ↔
      place' ≠ place ∧ kinds place' = none := by
    intro place'
    by_cases hp : place' = place
    · simp [hp]
    · simp [hp]
  have hfile : ∀ place', Function.update kinds place (some .file) place' = some .file ↔
      place' = place ∨ kinds place' = some .file := by
    intro place'
    by_cases hp : place' = place
    · simp [hp]
    · simp [hp]
  have hhoused : kinds place = none → (Housed kinds steps ↔
      Housed (Function.update kinds place (some .file)) steps) := by
    refine fun hfree => Housed.congr fun place' => ?_
    by_cases hp : place' = place
    · subst hp
      simp [hfree]
    · simp [hp]
  constructor
  · rintro ⟨hdistinct, hfree, hapart, hparents, hunblocked⟩
    obtain ⟨hnew, hdistinct⟩ := List.nodup_cons.mp hdistinct
    obtain ⟨hfirst, hparents⟩ := housed_file_iff.mp hparents
    have hplace := hfree place List.mem_cons_self
    refine ⟨hfirst, hplace, hdistinct, fun place' hp => (hnone place').mpr ⟨?_, ?_⟩,
      fun place' hp => hapart place' (List.mem_cons_of_mem _ hp), (hhoused hplace).mp hparents,
      fun place' hd hk => ?_⟩
    · rintro rfl
      exact hnew hp
    · exact hfree place' (List.mem_cons_of_mem _ hp)
    · rcases (hfile place').mp hk with rfl | hk
      · exact hapart place' List.mem_cons_self hd
      · exact hunblocked place' hd hk
  · rintro ⟨hfirst, hplace, hdistinct, hfree, hapart, hparents, hunblocked⟩
    refine ⟨List.nodup_cons.mpr ⟨fun hp => ((hnone place).mp (hfree place hp)).1 rfl, hdistinct⟩,
      fun place' hp => ?_, fun place' hp hd => ?_,
      housed_file_iff.mpr ⟨hfirst, (hhoused hplace).mpr hparents⟩, fun place' hd hk => ?_⟩
    · rcases List.mem_cons.mp hp with rfl | hp
      · exact hplace
      · exact ((hnone place').mp (hfree place' hp)).2
    · rcases List.mem_cons.mp hp with rfl | hp
      · exact hunblocked place' hd ((hfile place').mpr (Or.inl rfl))
      · exact hapart place' hp hd
    · exact hunblocked place' hd ((hfile place').mpr (Or.inr hk))

/-- **The steps can be made exactly if there is room for them.** -/
theorem perform_isSome_iff (kinds : Place → Option Kind) (steps : List (Step Place)) :
    (perform kinds steps).isSome ↔ Room kinds steps := by
  induction steps generalizing kinds with
  | nil => exact ⟨fun _ => ⟨List.nodup_nil, nofun, nofun, by simp [Housed], nofun⟩, fun _ => rfl⟩
  | cons step steps ih =>
    cases step with
    | directories places =>
      rw [room_directories_iff, ← ih, perform]
      split
      · rename_i hany
        obtain ⟨place, hp, hk⟩ := List.any_eq_true.mp hany
        exact ⟨nofun, fun h => absurd (of_decide_eq_true hk) (h.1 place hp)⟩
      · rename_i hnot
        exact ⟨fun h => ⟨fun place hp hk =>
          hnot (List.any_eq_true.mpr ⟨place, hp, decide_eq_true hk⟩), h⟩, And.right⟩
    | file parents place =>
      rw [room_file_iff, ← ih, perform]
      split
      · rename_i hfirst
        simp only [Bool.and_eq_true, List.all_eq_true, decide_eq_true_eq,
          Option.isNone_iff_eq_none] at hfirst
        exact ⟨fun h => ⟨hfirst.1, hfirst.2, h⟩, fun h => h.2.2⟩
      · rename_i hnot
        refine ⟨nofun, fun ⟨hparents, hplace, _⟩ => absurd ?_ hnot⟩
        simpa [hplace] using hparents

/-- The step that creates the file at the end of a path. -/
def fileStep (layout : Layout Place) (path : String) : Step Place :=
  .file (layout.parents path) (layout.place path)

omit [DecidableEq Place] in
@[simp] theorem filesOf_fileStep (layout : Layout Place) (path : String) (steps : List (Step Place)) :
    filesOf (fileStep layout path :: steps) = layout.place path :: filesOf steps := rfl

end Steps

/-! ## 2. What the programs do -/

section Programs

variable [DecidableEq Place] (layout : Layout Place)
  (fromReader : Source → Except String Configuration) (config : Configuration)

/-- Nothing fails for a reason of its own, and the configuration file is this one. -/
structure Fine (w : World) : Prop where
  io : w.ioFails = none
  gpio : w.gpioFails = none
  source : Configuration.parse fromReader w.source = .ok config

/-- The program ends as the steps do. -/
def Ends {α : Type} (Q : α → Prop) (after : Option (Place → Option Kind)) (r : Except StartError α)
    (d : Disk Place) : Prop :=
  match after with
  | some kinds => (∃ a, r = .ok a ∧ Q a) ∧ d.kinds = kinds
  | none => ∃ e, r = .error e

/-- **The program does these steps**: it succeeds exactly if they can be made. -/
def Does {α : Type} (steps : List (Step Place)) (p : Starting Place α) (Q : α → Prop) : Prop :=
  ∀ d, Spec (machine layout) (Fine fromReader config) p.run d fun r _ d' =>
    Ends Q (perform d.kinds steps) r d'

variable {layout fromReader config} {α β : Type} {steps steps' : List (Step Place)}

theorem does_pure {a : α} {Q : α → Prop} (h : Q a) :
    Does layout fromReader config [] (pure a) Q :=
  fun _ => Spec.ret ⟨⟨a, rfl, h⟩, rfl⟩

/-- **Sequencing.** -/
theorem does_bind {p : Starting Place α} {f : α → Starting Place β} {P : α → Prop} {Q : β → Prop}
    (hp : Does layout fromReader config steps p P)
    (hf : ∀ a, P a → Does layout fromReader config steps' (f a) Q) :
    Does layout fromReader config (steps ++ steps') (p >>= f) Q := by
  intro d
  refine Spec.bind (f := Fallible.onOk f) ((hp d).mono fun r h d' hends => ?_)
  rw [perform_append]
  cases hsteps : perform d.kinds steps with
  | none =>
    rw [hsteps] at hends
    obtain ⟨e, rfl⟩ := hends
    exact Spec.ret ⟨e, rfl⟩
  | some kinds =>
    rw [hsteps] at hends
    obtain ⟨⟨a, rfl, ha⟩, rfl⟩ := hends
    exact hf a ha d'

/-- A part without steps. -/
theorem does_with {p : Starting Place α} {f : α → Starting Place β} {P : α → Prop} {Q : β → Prop}
    (hp : Does layout fromReader config [] p P)
    (hf : ∀ a, P a → Does layout fromReader config steps (f a) Q) :
    Does layout fromReader config steps (p >>= f) Q :=
  does_bind hp hf

theorem does_then {p : Starting Place α} {f : α → Starting Place β} {Q : β → Prop}
    (hp : Does layout fromReader config [] p fun _ => True)
    (hf : ∀ a, Does layout fromReader config steps (f a) Q) :
    Does layout fromReader config steps (p >>= f) Q :=
  does_with hp fun a _ => hf a

/-- A part of one step. -/
theorem does_step {step : Step Place} {p : Starting Place α} {f : α → Starting Place β} {Q : β → Prop}
    (hp : Does layout fromReader config [step] p fun _ => True)
    (hf : ∀ a, Does layout fromReader config steps (f a) Q) :
    Does layout fromReader config (step :: steps) (p >>= f) Q :=
  does_bind hp fun a _ => hf a

/-- A part after which there are no steps. -/
theorem does_last {p : Starting Place α} {f : α → Starting Place β} {Q : β → Prop}
    (hp : Does layout fromReader config steps p fun _ => True)
    (hf : ∀ a, Does layout fromReader config [] (f a) Q) :
    Does layout fromReader config steps (p >>= f) Q := by
  rw [← List.append_nil steps]
  exact does_bind hp fun a _ => hf a

theorem does_return {p : Starting Place α} (hp : Does layout fromReader config steps p fun _ => True)
    (g : α → β) : Does layout fromReader config steps (p >>= fun a => pure (g a)) fun _ => True :=
  does_last hp fun _ => does_pure trivial

theorem kinds_append (d : Disk Place) (file : Place) (text : String) :
    (d.append file text).kinds = d.kinds := by
  funext place
  by_cases hp : place = file
  · simp only [Disk.kinds, Disk.append, if_pos hp]
    cases d.entries place with
    | none => rfl
    | some entry => cases entry <;> rfl
  · simp [Disk.kinds, Disk.append, hp]

theorem does_log (console : Place) (level : LogLevel) (string : String) :
    Does layout fromReader config [] (log console level string) fun _ => True := by
  intro d
  refine Spec.op_eq fun w _ => ⟨w.now, d, rfl, ?_⟩
  refine Spec.op_eq fun w' hw' => ⟨.ok (), d.append console (userLine w.now level string), ?_, ?_⟩
  · simp [machine, exec, hw'.io]
  · exact Spec.ret ⟨⟨(), rfl, trivial⟩, kinds_append _ _ _⟩

omit [DecidableEq Place] in
theorem hasFile_iff (d : Disk Place) (place : Place) :
    d.hasFile place = true ↔ d.kinds place = some .file := by
  unfold Disk.hasFile Disk.kinds
  cases d.entries place with
  | none => simp
  | some entry => cases entry <;> simp [Entry.kind]

theorem kinds_makeDirectories (d : Disk Place) (places : List Place) :
    (d.makeDirectories places).kinds = makeKinds d.kinds places := by
  funext place
  by_cases hp : place ∈ places
  · simp only [makeKinds, Disk.kinds, Disk.makeDirectories, if_pos hp]
    cases d.entries place <;> rfl
  · simp [makeKinds, Disk.kinds, Disk.makeDirectories, hp]

theorem does_createDirAll (path : String) :
    Does layout fromReader config [.directories (layout.directories path)] (createDirAll path)
      fun _ => True := by
  intro d
  have hany : (layout.directories path).any (fun place => decide (d.kinds place = some .file))
      = (layout.directories path).any d.hasFile :=
    congrArg _ (funext fun place => by rw [Bool.eq_iff_iff, decide_eq_true_iff, hasFile_iff])
  refine Spec.op_eq fun w hw => ?_
  simp only [machine, exec, hw.io]
  split
  · rename_i place hblocked
    refine ⟨_, _, rfl, Spec.ret ?_⟩
    rw [perform, hany, if_pos (List.any_eq_true.mpr ⟨place, List.mem_of_find?_eq_some hblocked,
      List.find?_some hblocked⟩)]
    exact ⟨_, rfl⟩
  · rename_i hfree
    refine ⟨_, _, rfl, Spec.ret ?_⟩
    rw [perform, hany, if_neg (by simpa using hfree)]
    exact ⟨⟨(), rfl, trivial⟩, kinds_makeDirectories _ _⟩

omit [DecidableEq Place] in
/-- A path can be followed through directories, and nothing else. -/
theorem obstacle_eq_none_iff (d : Disk Place) (parents : List Place) :
    d.obstacle parents = none ↔ ∀ parent ∈ parents, d.kinds parent = some .directory := by
  simp only [Disk.obstacle, List.findSome?_eq_none_iff, Disk.kinds]
  refine forall₂_congr fun parent _ => ?_
  cases d.entries parent with
  | none => simp
  | some entry => cases entry <;> simp [Entry.kind]

/-- A file created through `create_new`, whatever becomes of an error. -/
theorem does_createNew (path : String) {f : Except IoError Place → Except StartError Place}
    (hok : ∀ place, f (.ok place) = .ok place) (herror : ∀ e, ∃ e', f (.error e) = .error e') :
    Does layout fromReader config [fileStep layout path]
      (Fallible.attempt (.createNew path) f) fun _ => True := by
  intro d
  have hkinds : (d.kinds (layout.place path)).isNone = (d.entries (layout.place path)).isNone :=
    Option.isNone_map
  have hstep : perform d.kinds [fileStep layout path]
      = if d.obstacle (layout.parents path) = none ∧ (d.entries (layout.place path)).isNone then
          some (Function.update d.kinds (layout.place path) (some .file)) else none := by
    simp [fileStep, perform, obstacle_eq_none_iff, hkinds]
  have hrefused : ∀ e : IoError, perform d.kinds [fileStep layout path] = none →
      Ends (fun _ => True) (perform d.kinds [fileStep layout path]) (f (.error e)) d := by
    intro e hnone
    rw [hnone]
    exact herror e
  refine Spec.op_eq fun w hw => ?_
  simp only [machine, exec, hw.io]
  split
  · rename_i e hobstacle
    exact ⟨_, _, rfl, Spec.ret (hrefused e (by rw [hstep]; simp [hobstacle]))⟩
  · rename_i hfree
    split
    · rename_i hsome
      refine ⟨_, _, rfl, Spec.ret (hrefused _ ?_)⟩
      rw [hstep, if_neg fun h => ?_]
      rw [Option.isNone_iff_eq_none.mp h.2] at hsome
      cases hsome
    · rename_i hnone
      refine ⟨_, _, rfl, Spec.ret ?_⟩
      rw [hstep, if_pos ⟨hfree, by simpa using hnone⟩]
      refine ⟨⟨_, hok _, trivial⟩, funext fun place => ?_⟩
      by_cases hp : place = layout.place path
      · subst hp
        simp [Disk.kinds, Entry.kind]
      · simp [Disk.kinds, hp]

theorem does_fileCreateNew (path : String) :
    Does layout fromReader config [fileStep layout path] (fileCreateNew path) fun _ => True :=
  does_createNew path (fun _ => rfl) fun _ => ⟨_, rfl⟩

variable (layout)

/-- The steps for the logs of a group. -/
def groupSteps (logsPath : String) (group : SensorGroup) : List (Step Place) :=
  .directories (layout.directories (groupPath logsPath group)) ::
    group.sensors.map fun sensor => fileStep layout (sensorPath logsPath group sensor)

/-- The steps of a start. -/
def startSteps (logsPath : String) (config : Configuration) : List (Step Place) :=
  .directories (layout.directories logsPath) :: fileStep layout (consolePath logsPath) ::
    (config.sensorGroups.flatMap (groupSteps layout logsPath) ++
      [fileStep layout (pathOf [logsPath, "commands.csv"]),
        fileStep layout (pathOf [logsPath, "drivers.csv"]),
        fileStep layout (pathOf [logsPath, "sent.csv"])])

variable {layout}

theorem does_createSensorLogs (console : Place) (logsPath : String) (group : SensorGroup) :
    ∀ sensors : List Sensor, Does layout fromReader config
      (sensors.map fun sensor => fileStep layout (sensorPath logsPath group sensor))
      (createSensorLogs console logsPath group sensors) fun _ => True
  | [] => does_pure trivial
  | _ :: sensors =>
    does_step (does_fileCreateNew _) fun _ =>
      does_then (does_log _ _ _) fun _ =>
        does_return (does_createSensorLogs console logsPath group sensors) _

theorem does_createGroupLogs (console : Place) (logsPath : String) : ∀ groups : List SensorGroup,
    Does layout fromReader config (groups.flatMap (groupSteps layout logsPath))
      (createGroupLogs console logsPath groups) fun _ => True
  | [] => does_pure trivial
  | group :: groups =>
    does_step (does_createDirAll _) fun _ =>
      does_then (does_log _ _ _) fun _ =>
        does_bind (does_createSensorLogs console logsPath group group.sensors) fun _ _ =>
          does_return (does_createGroupLogs console logsPath groups) _

theorem does_createLogs (console : Place) (logsPath : String) : Does layout fromReader config
    (config.sensorGroups.flatMap (groupSteps layout logsPath) ++
      [fileStep layout (pathOf [logsPath, "commands.csv"]),
        fileStep layout (pathOf [logsPath, "drivers.csv"]),
        fileStep layout (pathOf [logsPath, "sent.csv"])])
    (createLogs console logsPath config) fun _ => True := by
  refine does_then (does_log _ _ _) fun _ => ?_
  refine does_bind (does_createGroupLogs console logsPath config.sensorGroups) fun sensors _ => ?_
  refine does_step (does_fileCreateNew _) fun commands => ?_
  refine does_step (does_fileCreateNew _) fun drivers => ?_
  refine does_step (does_fileCreateNew _) fun sent => ?_
  exact does_return (does_log _ _ _) _

theorem does_readConfiguration (console : Place) (jsonPath : String) :
    Does layout fromReader config [] (readConfiguration fromReader console jsonPath)
      fun config' => config' = config := by
  refine does_then (does_log _ _ _) fun _ => ?_
  refine does_with (P := fun source => Configuration.parse fromReader source = .ok config)
    (fun d => ?_) fun source hsource => ?_
  · refine Spec.op_eq fun w hw => ⟨.ok w.source, d, ?_, ?_⟩
    · simp [machine, exec, failing, hw.io]
    · exact Spec.ret ⟨⟨w.source, rfl, hw.source⟩, rfl⟩
  · rw [hsource]
    exact does_then (does_log _ _ _) fun _ => does_pure rfl

/-! ## 3. GPIO -/

/-- The chip gives every line, and every request is granted. -/
abbrev Granted {α : Type} (p : SetUp α) (Q : α → Prop) : Prop :=
  p.run.Ensures (fun _ => True) (fun _ a => a = .ok ()) fun r _ => ∃ a, r = .ok a ∧ Q a

theorem granted_pure {a : α} {Q : α → Prop} (h : Q a) : Granted (pure a) Q := ⟨a, rfl, h⟩

theorem granted_bind {p : SetUp α} {f : α → SetUp β} {P : α → Prop} {Q : β → Prop}
    (hp : Granted p P) (hf : ∀ a, P a → Granted (f a) Q) : Granted (p >>= f) Q := by
  refine Prog.Ensures.bind (f := Fallible.onOk f) (hp.mono ?_)
  rintro _ _ ⟨a, rfl, ha⟩
  exact (hf a ha).mono fun _ _ h => h

theorem granted_requestLine (pin : UInt8) (flags : LineRequestFlags) (default : UInt8) :
    Granted (requestLine pin flags default) fun _ => True := by
  refine ⟨trivial, ?_⟩
  rintro _ rfl
  refine ⟨trivial, ?_⟩
  rintro _ rfl
  exact ⟨_, rfl, trivial⟩

theorem granted_collectLines {default : UInt8} {make : LineHandle → SetUp α}
    (hmake : ∀ handle, Granted (make handle) fun _ => True) :
    ∀ pins : List UInt8, Granted (collectLines default make pins) fun _ => True
  | [] => ⟨_, rfl, trivial⟩
  | pin :: pins => by
    refine ⟨trivial, ?_⟩
    rintro _ rfl
    refine ⟨trivial, ?_⟩
    rintro _ rfl
    exact granted_bind (hmake _) fun made _ =>
      granted_bind (granted_collectLines hmake pins) fun others _ => granted_pure trivial

/-- A bus of a period below the limit of the ADCs. -/
theorem granted_bus (hclock : spiMinFrequency < config.spiFrequencyClk.toNat) :
    Granted (RaspberryPi.bus config) fun bus => bus.period < clockLimit := by
  have hne : config.spiFrequencyClk.toNat ≠ 0 := by
    have : spiMinFrequency = 10000 := rfl
    omega
  have hzero : config.spiFrequencyClk ≠ 0 := fun h => hne (congrArg UInt32.toNat h)
  unfold RaspberryPi.bus
  rw [period_of_ne hzero]
  refine granted_bind (granted_requestLine _ _ _) fun _ _ => ?_
  refine granted_bind (granted_requestLine _ _ _) fun _ _ => ?_
  refine granted_bind (granted_requestLine _ _ _) fun _ _ => ?_
  exact ⟨_, rfl, (period_lt_iff hne).mpr hclock⟩

theorem granted_adcs {bus : BusHandles} (hbus : bus.period < clockLimit) :
    Granted (RaspberryPi.adcs config bus) fun _ => True := by
  refine granted_collectLines (fun handle => ?_) config.adcCs
  unfold Mcp3208.new
  rw [if_pos hbus]
  exact ⟨_, rfl, trivial⟩

theorem granted_drivers : Granted (RaspberryPi.drivers config) fun _ => True :=
  granted_collectLines (fun _ => granted_pure trivial) _

/-- A part of the set-up makes no steps. -/
theorem does_ofGpio {p : SetUp α} {Q : α → Prop} (hp : Granted p Q) :
    Does layout fromReader config [] (ofGpio p : Starting Place α) Q := by
  intro d
  have hall : ∀ {p : Prog GpioOp GpioOp.Ans (Except SetUpError α)}
      {Q : Except SetUpError α → Prop},
      (p.Ensures (fun _ => True) (fun _ a => a = .ok ()) fun r _ => Q r) →
      Spec (machine layout) (Fine fromReader config)
        (p.expand fun o => .op (.gpio o) fun a => .ret a) d fun r _ d' => Q r ∧ d' = d := by
    intro p Q hp
    induction p with
    | ret r => exact Spec.ret ⟨hp, rfl⟩
    | panic => exact hp.elim
    | op o k ih =>
      refine Spec.op_eq fun w hw => ⟨.ok (), d, ?_, ih _ (hp.2 _ rfl)⟩
      simp [machine, exec, failing, hw.gpio]
  refine Spec.bind ((hall hp).mono ?_)
  rintro _ _ _ ⟨⟨a, rfl, ha⟩, rfl⟩
  exact Spec.ret ⟨⟨a, rfl, ha⟩, rfl⟩

theorem does_acquire (hclock : spiMinFrequency < config.spiFrequencyClk.toNat) (console : Place) :
    Does layout fromReader config [] (acquire console config) fun _ => True := by
  refine does_then (does_log _ _ _) fun _ => ?_
  refine does_then (fun d => ?_) fun _ => ?_
  · refine Spec.op_eq fun w hw => ⟨.ok (), d, ?_, ?_⟩
    · simp [machine, exec, failing, hw.gpio]
    · exact Spec.ret ⟨⟨(), rfl, trivial⟩, rfl⟩
  refine does_with (does_ofGpio (granted_bus hclock)) fun bus hbus => ?_
  refine does_then (does_ofGpio (granted_adcs hbus)) fun adcs => ?_
  refine does_then (does_ofGpio (granted_requestLine _ _ _)) fun heartbeat => ?_
  refine does_then (does_ofGpio granted_drivers) fun drivers => ?_
  refine does_then (does_log _ _ _) fun _ => ?_
  exact does_return (does_log _ _ _) _

theorem does_warnExtra (console : Place) (rest : List String) :
    Does layout fromReader config [] (warnExtra console rest) fun _ => True := by
  unfold warnExtra
  split
  · exact does_log _ _ _
  · exact does_pure trivial

/-- **A start does its steps.** -/
theorem does_start (hclock : spiMinFrequency < config.spiFrequencyClk.toNat)
    (jsonPath logsPath : String) (rest : List String) :
    Does layout fromReader config (startSteps layout logsPath config)
      (start fromReader (jsonPath :: logsPath :: rest)) fun _ => True := by
  have hconsole : Does layout fromReader config [fileStep layout (consolePath logsPath)]
      (createConsole logsPath) fun _ => True :=
    does_createNew _ (fun _ => rfl) fun _ => ⟨_, rfl⟩
  refine does_step (does_createDirAll logsPath) fun _ => ?_
  refine does_step hconsole fun console => ?_
  refine does_then (does_warnExtra console rest) fun _ => ?_
  refine does_with (does_readConfiguration console jsonPath) ?_
  rintro config' rfl
  refine does_last (does_createLogs console logsPath) fun logs => ?_
  exact does_return (does_acquire hclock console) _

end Programs

/-! ## 4. When it starts -/

section Starts

variable [DecidableEq Place]

/-- **The controller starts exactly if there is room for its logs**, when the outside world lets it:
no operation fails for a reason of its own, and the configuration file is that of a configuration
whose clock is above the limit. -/
theorem starts_iff_room (layout : Layout Place)
    (fromReader : Source → Except String Configuration) (config : Configuration)
    (jsonPath logsPath : String) (rest : List String) (d : Disk Place) (ω : Nat → World)
    (hclock : spiMinFrequency < config.spiFrequencyClk.toNat)
    (hfine : ∀ n, Fine fromReader config (ω n)) :
    (∃ started, (eval (machine layout) (start fromReader (jsonPath :: logsPath :: rest)).run ω
      d).outcome = .returned (.ok started)) ↔ Room d.kinds (startSteps layout logsPath config) := by
  obtain ⟨r, hr, hends⟩ := does_start hclock jsonPath logsPath rest d ω hfine
  rw [← perform_isSome_iff, hr]
  cases hsteps : perform d.kinds (startSteps layout logsPath config) with
  | none =>
    rw [hsteps] at hends
    obtain ⟨e, rfl⟩ := hends
    simp
  | some kinds =>
    rw [hsteps] at hends
    obtain ⟨⟨started, rfl, -⟩, -⟩ := hends
    simp

omit [DecidableEq Place] in
/-- The files of a start are the logs of its configuration. -/
theorem filesOf_startSteps (layout : Layout Place) (logsPath : String) (config : Configuration) :
    filesOf (startSteps layout logsPath config) = (logPaths logsPath config).map layout.place := by
  have hgroup : ∀ group, filesOf (groupSteps layout logsPath group)
      = group.sensors.map fun sensor => layout.place (sensorPath logsPath group sensor) := by
    intro group
    unfold groupSteps filesOf
    induction group.sensors with
    | nil => rfl
    | cons sensor sensors ih => simp [ih]
  have hgroups : filesOf (config.sensorGroups.flatMap (groupSteps layout logsPath))
      = (config.sensorGroups.flatMap fun group =>
        group.sensors.map (sensorPath logsPath group)).map layout.place := by
    induction config.sensorGroups with
    | nil => rfl
    | cons group groups ih =>
      simp [List.flatMap_cons, filesOf_append, hgroup, ih]
  simp [startSteps, logPaths, filesOf, filesOf_append, hgroups]

omit [DecidableEq Place] in
/-- **Two sensors of one label in one group** leave no room. -/
theorem not_room_of_label (layout : Layout Place) (kinds : Place → Option Kind) (logsPath : String)
    {config : Configuration} {group : SensorGroup} (hgroup : group ∈ config.sensorGroups)
    {a b : Sensor} (hab : [a, b].Sublist group.sensors) (hlabel : a.label = b.label) :
    ¬ Room kinds (startSteps layout logsPath config) := by
  intro hroom
  have hnodup := hroom.distinct
  rw [filesOf_startSteps] at hnodup
  have hpaths : [sensorPath logsPath group a, sensorPath logsPath group b].Sublist
      (logPaths logsPath config) := by
    refine .cons _ (.trans ?_ (List.sublist_append_left _ _))
    refine (hab.map (sensorPath logsPath group)).trans ?_
    obtain ⟨before, after, hsplit⟩ := List.append_of_mem hgroup
    rw [hsplit, List.flatMap_append, List.flatMap_cons]
    exact (List.sublist_append_left _ _).trans (List.sublist_append_right _ _)
  have := hnodup.sublist (hpaths.map layout.place)
  simp [sensorPath, hlabel] at this

/-- Two sensors of different labels start on an empty disk; two of one label do not, nor does one with a
slash in its label, for want of a directory. -/
theorem labels_must_differ :
    (∃ started, (eval (machine Layout.plain) (start (fun _ => .ok (twoSensors "PT_FEED"))
      ["config.json", "logs"]).run (fun _ => .quiet) ⟨fun _ => none⟩).outcome
        = .returned (.ok started)) ∧
    (¬ ∃ started, (eval (machine Layout.plain) (start (fun _ => .ok (twoSensors "LC_MAIN"))
      ["config.json", "logs"]).run (fun _ => .quiet) ⟨fun _ => none⟩).outcome
        = .returned (.ok started)) ∧
    ¬ ∃ started, (eval (machine Layout.plain) (start (fun _ => .ok (twoSensors "TC/1"))
      ["config.json", "logs"]).run (fun _ => .quiet) ⟨fun _ => none⟩).outcome
        = .returned (.ok started) := by
  refine ⟨?_, ?_, ?_⟩
  · refine (starts_iff_room Layout.plain _ (twoSensors "PT_FEED") "config.json" "logs" [] _ _
      (by decide) fun _ => ⟨rfl, rfl, by decide +kernel⟩).mpr ?_
    exact (perform_isSome_iff _ _).mp (by decide +kernel)
  · refine (starts_iff_room Layout.plain _ (twoSensors "LC_MAIN") "config.json" "logs" [] _ _
      (by decide) fun _ => ⟨rfl, rfl, by decide +kernel⟩).not.mpr ?_
    have hgroup := List.head_mem (l := (twoSensors "LC_MAIN").sensorGroups) (by decide)
    exact not_room_of_label Layout.plain _ "logs" hgroup (List.Sublist.refl _) rfl
  · refine (starts_iff_room Layout.plain _ (twoSensors "TC/1") "config.json" "logs" [] _ _
      (by decide) fun _ => ⟨rfl, rfl, by decide +kernel⟩).not.mpr ?_
    exact (perform_isSome_iff _ _).not.mp (by decide +kernel)

end Starts

end Slonk.Startup
