/-
This file models an install of the service and follows the environment that its
unit carries from one install to the next. An install reads the unit that is
there, layers what the shell has set over it and writes a new one. What the
unit then carries depends on the installs before it only through the last value
that one of them saw of each variable, which is the invariant of the files.
-/

import Multimux.Runs
import Multimux.ServiceUnit

namespace Multimux

/-! ### The installing shell -/

/-- The environment of a shell, where a variable that is not set is empty, and its working
directory, if it has one. -/
structure Shell where
  getenv : String → Bytes
  cwd : Option Bytes

/-- The home directory. -/
def Shell.home (shell : Shell) : Bytes := shell.getenv "HOME"

/-- `filepath.Abs`. -/
def Shell.abs (shell : Shell) (path : Bytes) : Option Bytes :=
  if path.head? = some 0x2F then some (ofLetters (cleanAnyPath (letters path)))
  else shell.cwd.map fun cwd => ofLetters (cleanAnyPath (letters (cwd ++ 0x2F :: path)))

/-- The settings that live only in the environment, in the order of their entries. -/
def capturedEnvVars : List String := ["MULTIMUX_DATA_DIR", "MULTIMUX_HOSTNAME"]

/-- What an install captures of a variable; a data directory is made absolute. -/
def Shell.captured (shell : Shell) (key : String) : Option Bytes :=
  let value := shell.getenv key
  if value = [] then none
  else if key = "MULTIMUX_DATA_DIR" then some ((shell.abs value).getD value)
  else some value

/-- The entries of the variables that have a value, in the fixed order. -/
def capturedEntries (value : String → Option Bytes) : List EnvVar :=
  capturedEnvVars.filterMap fun key => (value key).map fun value => ⟨bytes key, value⟩

/-- `captureEnv`: what the shell has of the variables that are kept. -/
def captureEnv (shell : Shell) : List EnvVar := capturedEntries shell.captured

/-- The entry of a key. -/
def lookupEnv (env : List EnvVar) (key : Bytes) : Option EnvVar := env.find? (·.key = key)

/-- The captured variables layered over those that the unit carries. -/
def mergeEnv (prev captured : List EnvVar) : List EnvVar :=
  capturedEnvVars.filterMap fun key =>
    (lookupEnv captured (bytes key)).or (lookupEnv prev (bytes key))

/-! ### Installs -/

/-- The files by their paths. -/
abbrev Files := Bytes → Option Bytes

/-- What reading the installed unit fails with. -/
inductive ReadError
  | unit (error : UnitError)
  | file (message : String)
  | parsing (message : String)
  deriving DecidableEq

/-- The environment of the installed unit; without a unit it is empty. -/
def installedEnv (goos : Goos) (home : Bytes) (files : Files) (failure : Option String) :
    Except ReadError (List EnvVar) :=
  match unitPath goos home with
  | .error error => .error (.unit error)
  | .ok path =>
    match failure, files path with
    | some message, _ => .error (.file message)
    | none, none => .ok []
    | none, some content =>
      match goos with
      | .darwin => (parsePlistEnv content).mapError .parsing
      | _ => .ok (parseSystemdEnv content)

/-- An install unreadable has no unit to carry settings over from. -/
inductive InstallError
  | unreadable (error : ReadError)
  | unit (error : UnitError)
  | failed (message : String)
  deriving DecidableEq

/-- An install, with the calls to the system that fail in it. A write that fails does so before
anything is written. -/
structure Installation where
  shell : Shell
  execPath : Bytes
  reading : Option String
  makingDirectory : Option String
  writing : Option String
  restarting : Option String

/-- The options of a new unit: the environment of the old one goes on where the shell has none. -/
def Installation.options (installation : Installation) (prev : List EnvVar) : UnitOptions where
  execPath := installation.execPath
  logPath := []
  pathEnv := installation.shell.getenv "PATH"
  env := mergeEnv prev (captureEnv installation.shell)

/-- The path and the content that an install is to write. -/
def Installation.unit (installation : Installation) (goos : Goos) (files : Files) :
    Except InstallError (Bytes × Bytes) :=
  match installedEnv goos installation.shell.home files installation.reading with
  | .error error => .error (.unreadable error)
  | .ok prev =>
    (unitContent goos installation.shell.home (installation.options prev)).mapError .unit

/-- The files. `written` is a history variable: the shells whose installs wrote a unit, with its
path. -/
structure InstallWorld where
  files : Files
  written : List (Bytes × Shell)

/-- `Install`. The service is started on the unit once that is written. -/
def install (goos : Goos) (world : InstallWorld) (installation : Installation) :
    InstallWorld × Option InstallError :=
  match installation.unit goos world.files with
  | .error error => (world, some error)
  | .ok (path, content) =>
    match installation.makingDirectory.or installation.writing with
    | some message => (world, some (.failed message))
    | none =>
      ({ files := Function.update world.files path (some content)
         written := world.written ++ [(path, installation.shell)] },
        installation.restarting.map .failed)

/-- The shells whose installs wrote the unit at a path. -/
def InstallWorld.writers (world : InstallWorld) (path : Bytes) : List Shell :=
  (world.written.filter (·.1 = path)).map Prod.snd

/-- The last value of a variable that one of the shells had. -/
def lastSeen (shells : List Shell) (key : String) : Option Bytes :=
  (shells.filterMap (·.captured key)).getLast?

/-- The path of the shell, or the default one. -/
def Shell.pathEntry (shell : Shell) : EnvVar :=
  ⟨bytes "PATH", if shell.getenv "PATH" = [] then defaultPathEnv else shell.getenv "PATH"⟩

/-- The path of the last shell, and each variable with the last value that was seen. -/
def carried (shells : List Shell) (last : Shell) : List EnvVar :=
  last.pathEntry :: capturedEntries (lastSeen (shells ++ [last]))

/-! ### Merging -/

theorem lookupEnv_capturedEntries (value : String → Option Bytes) :
    ∀ key ∈ capturedEnvVars, lookupEnv (capturedEntries value) (bytes key) =
      (value key).map fun value => ⟨bytes key, value⟩ := by
  have other : bytes "MULTIMUX_DATA_DIR" ≠ bytes "MULTIMUX_HOSTNAME" := by decide
  intro key member
  simp only [capturedEnvVars, List.mem_cons, List.not_mem_nil, or_false] at member
  rcases member with rfl | rfl <;> cases dir : value "MULTIMUX_DATA_DIR" <;>
    cases name : value "MULTIMUX_HOSTNAME" <;>
    simp [lookupEnv, capturedEntries, capturedEnvVars, dir, name, other, other.symm]

/-- The path is no captured variable. -/
theorem lookupEnv_carried (shells : List Shell) (last : Shell) :
    ∀ key ∈ capturedEnvVars, lookupEnv (carried shells last) (bytes key) =
      (lastSeen (shells ++ [last]) key).map fun value => ⟨bytes key, value⟩ := by
  intro key member
  have other : bytes "PATH" ≠ bytes key := by
    revert key
    decide
  rw [← lookupEnv_capturedEntries _ key member, carried, lookupEnv, List.find?_cons_of_neg]
  · rfl
  · rw [decide_eq_true_eq]
    exact other

theorem lastSeen_concat (shells : List Shell) (shell : Shell) (key : String) :
    lastSeen (shells ++ [shell]) key = (shell.captured key).or (lastSeen shells key) := by
  rw [lastSeen, List.filterMap_append]
  cases captured : shell.captured key with
  | none => simp [captured, lastSeen]
  | some value => simp [captured]

/-- Merging takes what is captured, and what was seen before where nothing is. -/
theorem mergeEnv_captureEnv {prev : List EnvVar} {shells : List Shell} (shell : Shell)
    (carries : ∀ key ∈ capturedEnvVars, lookupEnv prev (bytes key) =
      (lastSeen shells key).map fun value => ⟨bytes key, value⟩) :
    mergeEnv prev (captureEnv shell) = capturedEntries (lastSeen (shells ++ [shell])) := by
  refine List.filterMap_congr fun key member => ?_
  rw [carries key member, captureEnv, lookupEnv_capturedEntries _ key member, lastSeen_concat]
  cases shell.captured key <;> rfl

/-! ### The invariant -/

/-- Every unit on disk carries what the installs that wrote it saw. -/
def InstallWorld.Carries (world : InstallWorld) : Prop :=
  ∀ path, (world.files path = none ∧ world.writers path = []) ∨
    ∃ content shells last, world.files path = some content ∧
      world.writers path = shells ++ [last] ∧ parseSystemdEnv content = carried shells last

section Installs

variable {world : InstallWorld} {installation : Installation}

/-- What is read of the unit carries the last value seen of each variable. -/
theorem InstallWorld.Carries.installedEnv (carries : world.Carries) {home path : Bytes}
    (there : unitPath .linux home = .ok path) {failure : Option String} {prev : List EnvVar}
    (read : installedEnv .linux home world.files failure = .ok prev) :
    ∀ key ∈ capturedEnvVars, lookupEnv prev (bytes key) =
      (lastSeen (world.writers path) key).map fun value => ⟨bytes key, value⟩ := by
  intro key member
  simp only [Multimux.installedEnv, there] at read
  rcases carries path with ⟨missing, none⟩ | ⟨content, shells, last, found, writers, parsed⟩
  · rw [missing] at read
    cases failure <;> cases read
    rw [none]
    rfl
  · rw [found] at read
    cases failure <;> cases read
    rw [parsed, writers]
    exact lookupEnv_carried shells last key member

/-- The unit of an install, taken apart. -/
theorem Installation.unit_ok {goos : Goos} {files : Files} {path content : Bytes}
    (made : installation.unit goos files = .ok (path, content)) :
    ∃ prev, installedEnv goos installation.shell.home files installation.reading = .ok prev ∧
      unitContent goos installation.shell.home (installation.options prev) =
        .ok (path, content) := by
  unfold Installation.unit at made
  split at made
  · cases made
  · rename_i prev read
    refine ⟨prev, read, ?_⟩
    cases rendered : unitContent goos installation.shell.home (installation.options prev) with
    | error error =>
      rw [rendered] at made
      cases made
    | ok unit =>
      rw [rendered] at made
      cases made
      rfl

/-- An install leaves everything as it was, or it writes the unit that it made. -/
theorem install_cases (goos : Goos) (world : InstallWorld) (installation : Installation) :
    (∃ error, install goos world installation = (world, some error)) ∨
      ∃ path content, installation.unit goos world.files = .ok (path, content) ∧
        (install goos world installation).1.files =
          Function.update world.files path (some content) ∧
        (install goos world installation).1.written =
          world.written ++ [(path, installation.shell)] := by
  unfold install
  split
  · exact .inl ⟨_, rfl⟩
  · rename_i path content made
    split
    · exact .inl ⟨_, rfl⟩
    · exact .inr ⟨path, content, made, rfl, rfl⟩

/-- What an install writes carries on what the installs before it saw. -/
theorem InstallWorld.Carries.unit (carries : world.Carries)
    (free : newline ∉ installation.execPath) {path content : Bytes}
    (made : installation.unit .linux world.files = .ok (path, content)) :
    unitPath .linux installation.shell.home = .ok path ∧
      parseSystemdEnv content = carried (world.writers path) installation.shell := by
  obtain ⟨prev, read, rendered⟩ := installation.unit_ok made
  obtain ⟨there, valid, rfl⟩ := unitContent_linux rendered
  refine ⟨there, (parseSystemdEnv_template free valid).trans ?_⟩
  exact congrArg (List.cons _)
    (mergeEnv_captureEnv installation.shell (carries.installedEnv there read))

theorem writers_concat (files : Files) (written : List (Bytes × Shell)) (path other : Bytes)
    (shell : Shell) :
    (⟨files, written ++ [(path, shell)]⟩ : InstallWorld).writers other =
      (⟨files, written⟩ : InstallWorld).writers other ++ if path = other then [shell] else [] := by
  simp only [InstallWorld.writers, List.filter_append, List.map_append]
  by_cases same : path = other <;> simp [same]

theorem InstallWorld.Carries.install (carries : world.Carries)
    (free : newline ∉ installation.execPath) :
    (install .linux world installation).1.Carries := by
  rcases install_cases .linux world installation with
    ⟨error, same⟩ | ⟨path, content, made, files, written⟩
  · rw [same]
    exact carries
  · obtain ⟨-, parsed⟩ := carries.unit free made
    generalize Multimux.install .linux world installation = done at files written
    obtain ⟨⟨after, history⟩, error⟩ := done
    subst files written
    intro other
    rw [writers_concat]
    by_cases same : path = other
    · subst same
      rw [if_pos rfl]
      exact .inr ⟨content, _, _, Function.update_self .., rfl, parsed⟩
    · rw [if_neg same, List.append_nil]
      have kept : Function.update world.files path (some content) other = world.files other :=
        Function.update_of_ne (Ne.symm same) ..
      show (Function.update world.files path (some content) other = none ∧ _) ∨ ∃ _ _ _,
        Function.update world.files path (some content) other = _ ∧ _
      rw [kept]
      exact carries other

end Installs

/-! ### Sequences of installs -/

end Multimux
