/-
This file models the service units that an install writes and reads back: the
property list of launchd and the unit file of systemd, both rendered from the
same options, and the environment that each of them carries. What is written
with one escaping is read back with the inverse of it, so a unit can hand its
settings on to the next install.
-/

import Multimux.Paths
import Multimux.Xml

namespace Multimux

/-! ### Units -/

/-- One environment entry of a unit. -/
structure EnvVar where
  key : Bytes
  value : Bytes
  deriving DecidableEq

/-- The system that a unit is for. -/
inductive Goos
  | darwin
  | linux
  | other (name : Bytes)
  deriving DecidableEq

/-- The launchd job label. -/
def serviceLabel : Bytes := bytes "com.jontuk.multimux"

/-- The common install locations, for an installing shell without a path. -/
def defaultPathEnv : Bytes :=
  bytes "/opt/homebrew/bin:/usr/local/bin:/usr/bin:/bin:/usr/sbin:/sbin"

/-- What a unit is rendered from; an empty log path or path falls back to a default. -/
structure UnitOptions where
  execPath : Bytes
  logPath : Bytes
  pathEnv : Bytes
  env : List EnvVar

/-- What a unit is refused with. -/
inductive UnitError
  | noHome
  | unsupportedOS (name : Bytes)
  | emptyName
  | invalidName (name : Bytes)
  | controlCharacter (name : Bytes) (offset : Nat)
  deriving DecidableEq

/-- The text of an error, given how a text is quoted. -/
def UnitError.message (quote : Bytes → Bytes) : UnitError → Bytes
  | noHome => bytes "$HOME is not defined"
  | unsupportedOS name => bytes "svc: unsupported OS " ++ quote name
  | emptyName => bytes "svc: empty environment variable name"
  | invalidName name => bytes "svc: invalid environment variable name " ++ quote name
  | controlCharacter name offset =>
    bytes "svc: " ++ name ++ bytes " contains a control character (offset " ++
      bytes (toString offset) ++ bytes ") and cannot be written to a service unit"

/-- `filepath.Join`. -/
def joinBytes (path : Bytes) (tail : List String) : Bytes :=
  ofLetters (cleanAnyPath (letters (path ++ tail.flatMap fun name => bytes "/" ++ bytes name)))

/-- Where the unit is installed, in the home directory that the shell names. -/
def unitPath (goos : Goos) (home : Bytes) : Except UnitError Bytes :=
  if home = [] then .error .noHome
  else
    match goos with
    | .darwin => .ok (joinBytes home ["Library", "LaunchAgents", "com.jontuk.multimux.plist"])
    | .linux => .ok (joinBytes home [".config", "systemd", "user", "multimux.service"])
    | .other name => .error (.unsupportedOS name)

/-- Where launchd sends the daemon's output. -/
def defaultLogPath (home : Bytes) : Bytes :=
  joinBytes home [".local", "share", "multimux", "multimux.log"]

/-! ### Entries -/

/-- The bytes of a variable's name. -/
def nameByte (byte : UInt8) : Bool :=
  byte = 0x5F ∨ between 0x61 0x7A byte ∨ between 0x41 0x5A byte ∨ between 0x30 0x39 byte

/-- Entries that a unit file cannot represent are rejected. -/
def validateEnv (entry : EnvVar) : Except UnitError Unit :=
  if entry.key = [] then .error .emptyName
  else if ¬ entry.key.all nameByte then .error (.invalidName entry.key)
  else if entry.key.head?.any (between 0x30 0x39) then .error (.invalidName entry.key)
  else
    match entry.value.findIdx? (· ∈ [0x0A, 0x0D, 0x00]) with
    | some offset => .error (.controlCharacter entry.key offset)
    | none => .ok ()

/-- A backslash, a quote or a percent sign with what keeps it from its meaning. -/
def systemdEscapeByte (byte : UInt8) : Bytes :=
  if byte = 0x5C then [0x5C, 0x5C]
  else if byte = 0x22 then [0x5C, 0x22]
  else if byte = 0x25 then [0x25, 0x25]
  else [byte]

/-- The value with everything escaped that systemd reads. -/
def systemdEscape (value : Bytes) : Bytes := value.flatMap systemdEscapeByte

/-- The inverse of `systemdEscape`, in one pass. -/
def systemdUnescape : Bytes → Bytes
  | [] => []
  | [byte] => [byte]
  | byte :: next :: rest =>
    if byte = 0x5C then next :: systemdUnescape rest
    else if byte = 0x25 ∧ next = 0x25 then 0x25 :: systemdUnescape rest
    else byte :: systemdUnescape (next :: rest)

/-- One entry as the system writes it. -/
def renderVar (goos : Goos) (entry : EnvVar) : Bytes :=
  match goos with
  | .darwin =>
    bytes "\t\t<key>" ++ escapeText entry.key ++ bytes "</key><string>" ++
      escapeText entry.value ++ bytes "</string>\n"
  | _ => bytes "Environment=\"" ++ entry.key ++ bytes "=" ++ systemdEscape entry.value ++
      bytes "\"\n"

/-- The entries up to the first that is rejected. -/
def renderEnv (goos : Goos) : List EnvVar → Except UnitError Bytes
  | [] => .ok []
  | entry :: rest =>
    match validateEnv entry with
    | .error error => .error error
    | .ok () => (renderEnv goos rest).map (renderVar goos entry ++ ·)

/-! ### Templates -/

/-- The lines before the command. -/
def systemdHead : List Bytes :=
  ["[Unit]", "Description=multimux terminal session daemon", "", "[Service]"].map bytes

/-- The lines behind the environment. -/
def systemdTail : List Bytes :=
  ["Restart=on-failure",
    "# Signal only the daemon on stop; the tmux server lives in this cgroup and",
    "# must survive service stop/restart and binary upgrades.", "KillMode=process", "",
    "[Install]", "WantedBy=default.target"].map bytes

/-- `systemdTemplate` with its two texts. -/
def systemdTemplate (execPath env : Bytes) : Bytes :=
  unlines systemdHead ++ (bytes "ExecStart=\"" ++ execPath ++ bytes "\" serve\n") ++ env ++
    unlines systemdTail

/-- The property list up to the path of the program. -/
def plistHead : Bytes :=
  unlines (["<?xml version=\"1.0\" encoding=\"UTF-8\"?>",
    "<!DOCTYPE plist PUBLIC \"-//Apple//DTD PLIST 1.0//EN\" " ++
      "\"http://www.apple.com/DTDs/PropertyList-1.0.dtd\">",
    "<plist version=\"1.0\">", "<dict>"].map bytes) ++
    bytes "\t<key>Label</key><string>" ++ serviceLabel ++ bytes "</string>\n" ++
    unlines (["\t<key>ProgramArguments</key>", "\t<array>"].map bytes) ++ bytes "\t\t<string>"

/-- From there to the environment. -/
def plistArguments : Bytes :=
  bytes "</string>\n" ++ unlines (["\t\t<string>serve</string>", "\t</array>",
    "\t<key>EnvironmentVariables</key>", "\t<dict>"].map bytes)

/-- From there to the path of the log. -/
def plistOut : Bytes :=
  unlines (["\t</dict>", "\t<key>RunAtLoad</key><true/>", "\t<key>KeepAlive</key><true/>"].map
    bytes) ++ bytes "\t<key>StandardOutPath</key><string>"

/-- From there to the path of the error log. -/
def plistErr : Bytes := bytes "</string>\n\t<key>StandardErrorPath</key><string>"

/-- The end of the property list. -/
def plistTail : Bytes := bytes "</string>\n" ++ unlines (["</dict>", "</plist>"].map bytes)

/-- `plistTemplate` with its label and its texts. -/
def plistTemplate (execPath env logPath : Bytes) : Bytes :=
  plistHead ++ execPath ++ plistArguments ++ env ++ plistOut ++ logPath ++ plistErr ++ logPath ++
    plistTail

/-- The path comes first; it is rendered as the other entries are. -/
def UnitOptions.entries (options : UnitOptions) : List EnvVar :=
  ⟨bytes "PATH", if options.pathEnv = [] then defaultPathEnv else options.pathEnv⟩ :: options.env

/-- Where the unit goes and what it holds. -/
def unitContent (goos : Goos) (home : Bytes) (options : UnitOptions) :
    Except UnitError (Bytes × Bytes) :=
  match unitPath goos home with
  | .error error => .error error
  | .ok path =>
    match renderEnv goos options.entries with
    | .error error => .error error
    | .ok env =>
      match goos with
      | .darwin =>
        let logPath := if options.logPath = [] then defaultLogPath home else options.logPath
        .ok (path, plistTemplate (escapeText options.execPath) env (escapeText logPath))
      | _ => .ok (path, systemdTemplate options.execPath env)

/-! ### Reading units -/

/-- A line that assigns a variable; one that is not understood is skipped. -/
def parseSystemdLine (line : Bytes) : Option EnvVar :=
  match cutPrefix (trimSpaces line) (bytes "Environment=") with
  | none => none
  | some rest =>
    match cut (trimSuffixByte (trimPrefixByte rest 0x22) 0x22) 0x3D with
    | none => none
    | some (key, value) => if key = [] then none else some ⟨key, systemdUnescape value⟩

/-- The environment of a systemd unit; lines of another kind are passed over. -/
def parseSystemdEnv (content : Bytes) : List EnvVar :=
  (splitLines content).filterMap parseSystemdLine

/-- Where the walk over a property list stands: how many dictionaries are open, which of them is
the environment if one is, whether the next one is, and the text of the innermost element. -/
structure PlistWalk where
  out : List EnvVar
  depth : Nat
  envDepth : Nat
  armed : Bool
  elem : Bytes
  text : Bytes
  curKey : Bytes
  wantValue : Bool

/-- The walk before the first token. -/
def PlistWalk.start : PlistWalk := ⟨[], 0, 0, false, [], [], [], false⟩

/-- The walk is in the environment, and in no dictionary of it. -/
def PlistWalk.inEnv (walk : PlistWalk) : Bool := walk.envDepth ≠ 0 ∧ walk.depth = walk.envDepth

/-- One token of the walk. -/
def PlistWalk.step (walk : PlistWalk) : XmlToken → PlistWalk
  | .startElement name =>
    let walk := { walk with elem := name, text := [] }
    if name = bytes "dict" then
      if walk.armed then
        { walk with depth := walk.depth + 1, armed := false, envDepth := walk.depth + 1 }
      else { walk with depth := walk.depth + 1 }
    else walk
  | .charData data =>
    if walk.elem = bytes "key" ∨ walk.elem = bytes "string" then
      { walk with text := walk.text ++ data }
    else walk
  | .endElement name =>
    let walk :=
      if name = bytes "dict" then
        { walk with
          envDepth := if walk.depth = walk.envDepth then 0 else walk.envDepth
          depth := walk.depth - 1 }
      else if name = bytes "key" then
        if walk.inEnv then { walk with curKey := walk.text, wantValue := true }
        else { walk with armed := walk.text = bytes "EnvironmentVariables" }
      else if name = bytes "string" ∧ walk.inEnv ∧ walk.wantValue then
        { walk with out := walk.out ++ [⟨walk.curKey, walk.text⟩], wantValue := false }
      else walk
    { walk with elem := [], text := [] }

/-- The environment of a property list. The tokens are those of `xmlTokens`, which are the
decoder's for every list that is rendered here and may differ for one that was edited by hand. -/
def parsePlistEnv (content : Bytes) : Except String (List EnvVar) :=
  (xmlTokens content).map fun tokens => (tokens.foldl PlistWalk.step .start).out

/-! ### Accepted entries -/

theorem validateEnv_ok {entry : EnvVar} (valid : validateEnv entry = .ok ()) :
    entry.key ≠ [] ∧ (∀ byte ∈ entry.key, nameByte byte = true) ∧
      ∀ byte ∈ entry.value, byte ∉ [0x0A, 0x0D, 0x00] := by
  unfold validateEnv at valid
  split_ifs at valid with empty names digit
  split at valid
  · cases valid
  · rename_i none
    refine ⟨empty, List.all_eq_true.mp names, fun byte member special => ?_⟩
    have absent := List.findIdx?_eq_none_iff.mp none byte member
    rw [decide_eq_false_iff_not] at absent
    exact absent special

/-- A block is rendered exactly if every entry is accepted, entry by entry. -/
theorem renderEnv_eq_ok {goos : Goos} {env : List EnvVar} {block : Bytes} :
    renderEnv goos env = .ok block ↔
      (∀ entry ∈ env, validateEnv entry = .ok ()) ∧ block = env.flatMap (renderVar goos) := by
  induction env generalizing block with
  | nil =>
    rw [renderEnv, Except.ok.injEq, List.flatMap_nil]
    simp [eq_comm]
  | cons entry rest inductionHypothesis =>
    rw [renderEnv, List.forall_mem_cons, List.flatMap_cons]
    cases valid : validateEnv entry with
    | error error => simp
    | ok =>
      simp only [true_and]
      cases rendered : renderEnv goos rest with
      | error error =>
        simp only [Except.map, reduceCtorEq, false_iff, not_and]
        intro each
        have made := inductionHypothesis.mpr ⟨each, rfl⟩
        rw [rendered] at made
        cases made
      | ok tail =>
        obtain ⟨each, rfl⟩ := inductionHypothesis.mp rendered
        simp only [Except.map, Except.ok.injEq]
        exact ⟨fun same => ⟨each, same.symm⟩, fun made => made.2.symm⟩

/-! ### The unit file -/

theorem systemdUnescape_cons {byte : UInt8} (notBackslash : byte ≠ 0x5C) (notPercent : byte ≠ 0x25)
    (rest : Bytes) : systemdUnescape (byte :: rest) = byte :: systemdUnescape rest := by
  cases rest with
  | nil => rfl
  | cons next rest =>
    rw [systemdUnescape, if_neg notBackslash, if_neg fun both => notPercent both.1]

@[simp]
theorem systemdUnescape_escape (value : Bytes) : systemdUnescape (systemdEscape value) = value := by
  induction value with
  | nil => rfl
  | cons byte rest inductionHypothesis =>
    rw [systemdEscape, List.flatMap_cons, ← systemdEscape, systemdEscapeByte]
    split_ifs with backslash quote percent
    · subst backslash
      exact congrArg (List.cons _) inductionHypothesis
    · subst quote
      exact congrArg (List.cons _) inductionHypothesis
    · subst percent
      exact congrArg (List.cons _) inductionHypothesis
    · rw [List.singleton_append, systemdUnescape_cons backslash percent, inductionHypothesis]

theorem mem_systemdEscape {value : Bytes} {byte : UInt8} (member : byte ∈ systemdEscape value) :
    byte ∈ value ∨ byte ∈ [0x5C, 0x22, 0x25] := by
  obtain ⟨letter, there, made⟩ := List.mem_flatMap.mp member
  unfold systemdEscapeByte at made
  split_ifs at made <;> simp only [List.mem_cons, List.not_mem_nil, or_false] at made ⊢
  · exact .inr (.inl (made.elim id id))
  · rcases made with rfl | rfl <;> simp
  · exact .inr (.inr (.inr (made.elim id id)))
  · exact .inl (made ▸ there)

/-- The line that assigns a variable. -/
def environmentLine (entry : EnvVar) : Bytes :=
  bytes "Environment=\"" ++ entry.key ++ bytes "=" ++ systemdEscape entry.value ++ [0x22]

theorem flatMap_renderVar_linux (env : List EnvVar) :
    env.flatMap (renderVar .linux) = unlines (env.map environmentLine) := by
  rw [unlines, List.flatMap_map]
  refine List.flatMap_congr fun entry _ => ?_
  simp only [renderVar, environmentLine, List.append_assoc]
  rfl

theorem newline_notMem_environmentLine {entry : EnvVar} (valid : validateEnv entry = .ok ()) :
    newline ∉ environmentLine entry := by
  obtain ⟨-, names, values⟩ := validateEnv_ok valid
  simp only [environmentLine, List.mem_append, not_or]
  refine ⟨⟨⟨⟨by decide, fun member => ?_⟩, by decide⟩, fun member => ?_⟩, by decide⟩
  · exact absurd (names newline member) (by decide)
  · rcases mem_systemdEscape member with inside | added
    · exact values newline inside (by decide)
    · exact absurd added (by decide)

/-- An assignment reads back as the entry that was written. -/
theorem parseSystemdLine_environmentLine {entry : EnvVar} (valid : validateEnv entry = .ok ()) :
    parseSystemdLine (environmentLine entry) = some entry := by
  obtain ⟨nonempty, names, -⟩ := validateEnv_ok valid
  have trimmed : trimSpaces (environmentLine entry) = environmentLine entry := by
    have shape : environmentLine entry = 0x45 :: ((bytes "nvironment=\"" ++ entry.key ++
        bytes "=" ++ systemdEscape entry.value) ++ [0x22]) := by
      simp only [environmentLine, List.append_assoc]
      rfl
    rw [shape]
    exact trimSpaces_eq_self (by decide) (by decide)
  have shape : environmentLine entry = bytes "Environment=" ++
      (0x22 :: ((entry.key ++ 0x3D :: systemdEscape entry.value) ++ [0x22])) := by
    have quoted : bytes "Environment=\"" = bytes "Environment=" ++ [0x22] := by decide
    have equals : bytes "=" = [0x3D] := by decide
    simp only [environmentLine, quoted, equals, List.append_assoc, List.cons_append,
      List.nil_append]
  have free : (0x3D : UInt8) ∉ entry.key := fun member =>
    absurd (names _ member) (by decide)
  rw [parseSystemdLine, trimmed, shape, cutPrefix_append]
  dsimp only
  rw [trimPrefixByte_cons, trimSuffixByte_concat, cut_append free]
  dsimp only
  rw [if_neg nonempty, systemdUnescape_escape]

theorem filterMap_environmentLine {env : List EnvVar}
    (valid : ∀ entry ∈ env, validateEnv entry = .ok ()) :
    (env.map environmentLine).filterMap parseSystemdLine = env := by
  have each : ∀ entry ∈ env, parseSystemdLine (environmentLine entry) = some entry :=
    fun entry member => parseSystemdLine_environmentLine (valid entry member)
  rw [List.filterMap_map, Function.comp_def, List.filterMap_congr each, List.filterMap_some]

/-- The line that starts the daemon. -/
def execStartLine (execPath : Bytes) : Bytes :=
  bytes "ExecStart=\"" ++ execPath ++ bytes "\" serve"

theorem systemdTemplate_eq (execPath : Bytes) (env : List EnvVar) :
    systemdTemplate execPath (env.flatMap (renderVar .linux)) =
      unlines (systemdHead ++ execStartLine execPath :: env.map environmentLine ++
        systemdTail) := by
  have line : bytes "ExecStart=\"" ++ execPath ++ bytes "\" serve\n" =
      unlines [execStartLine execPath] := by
    simp only [unlines, execStartLine, List.flatMap_cons, List.flatMap_nil, List.append_assoc,
      List.append_nil]
    rfl
  rw [systemdTemplate, line, flatMap_renderVar_linux, ← unlines_append, ← unlines_append,
    ← unlines_append, List.append_assoc systemdHead, List.singleton_append]

/-- The lines of a unit file. -/
theorem splitLines_systemdTemplate {execPath : Bytes} (free : newline ∉ execPath)
    {env : List EnvVar} (valid : ∀ entry ∈ env, validateEnv entry = .ok ()) :
    splitLines (systemdTemplate execPath (env.flatMap (renderVar .linux))) =
      systemdHead ++ execStartLine execPath :: env.map environmentLine ++ systemdTail ++
        [[]] := by
  rw [systemdTemplate_eq]
  refine splitLines_unlines fun line member => ?_
  rw [List.append_assoc, List.cons_append] at member
  rcases List.mem_append.mp member with head | rest
  · have each : ∀ line ∈ systemdHead, newline ∉ line := by decide
    exact each line head
  · rcases List.mem_cons.mp rest with rfl | rest
    · simp only [execStartLine, List.mem_append, not_or]
      exact ⟨⟨by decide, free⟩, by decide⟩
    · rcases List.mem_append.mp rest with assigned | tail
      · obtain ⟨entry, there, rfl⟩ := List.mem_map.mp assigned
        exact newline_notMem_environmentLine (valid entry there)
      · have each : ∀ line ∈ systemdTail, newline ∉ line := by decide
        exact each line tail

theorem parseSystemdLine_execStartLine (execPath : Bytes) :
    parseSystemdLine (execStartLine execPath) = none := by
  have shape : execStartLine execPath =
      0x45 :: ((bytes "xecStart=\"" ++ execPath ++ bytes "\" serv") ++ [0x65]) := by
    simp only [execStartLine, List.append_assoc]
    rfl
  have other : cutPrefix (execStartLine execPath) (bytes "Environment=") = none := by
    rw [shape, cutPrefix, if_neg]
    rintro ⟨rest, same⟩
    cases same
  have trimmed : trimSpaces (execStartLine execPath) = execStartLine execPath := by
    rw [shape]
    exact trimSpaces_eq_self (by decide) (by decide)
  rw [parseSystemdLine, trimmed, other]

/-- A unit file is read back as the entries that it was rendered from. -/
theorem parseSystemdEnv_template {execPath : Bytes} (free : newline ∉ execPath)
    {env : List EnvVar} (valid : ∀ entry ∈ env, validateEnv entry = .ok ()) :
    parseSystemdEnv (systemdTemplate execPath (env.flatMap (renderVar .linux))) = env := by
  have head : systemdHead.filterMap parseSystemdLine = [] := by decide
  have tail : systemdTail.filterMap parseSystemdLine = [] := by decide
  have last : [[]].filterMap parseSystemdLine = [] := by decide
  rw [parseSystemdEnv, splitLines_systemdTemplate free valid, List.filterMap_append,
    List.filterMap_append, List.filterMap_append, List.filterMap_cons,
    parseSystemdLine_execStartLine, filterMap_environmentLine valid, head, tail, last,
    List.nil_append, List.append_nil, List.append_nil]

/-- What is rendered for linux: a unit file of accepted entries. -/
theorem unitContent_linux {home path content : Bytes} {options : UnitOptions}
    (rendered : unitContent .linux home options = .ok (path, content)) :
    unitPath .linux home = .ok path ∧
      (∀ entry ∈ options.entries, validateEnv entry = .ok ()) ∧
      content = systemdTemplate options.execPath (options.entries.flatMap (renderVar .linux)) := by
  unfold unitContent at rendered
  split at rendered
  · cases rendered
  · rename_i there
    split at rendered
    · cases rendered
    · rename_i block accepted
      cases rendered
      obtain ⟨valid, rfl⟩ := renderEnv_eq_ok.mp accepted
      exact ⟨there, valid, rfl⟩

/-- Accepted entries are rendered wherever there is a home directory. -/
theorem exists_unitContent_linux {home : Bytes} (nonempty : home ≠ []) {options : UnitOptions}
    (valid : ∀ entry ∈ options.entries, validateEnv entry = .ok ()) :
    ∃ path content, unitContent .linux home options = .ok (path, content) := by
  have there : unitPath .linux home =
      .ok (joinBytes home [".config", "systemd", "user", "multimux.service"]) := if_neg nonempty
  have accepted : renderEnv .linux options.entries = .ok _ := renderEnv_eq_ok.mpr ⟨valid, rfl⟩
  simp only [unitContent, there, accepted, Except.ok.injEq, Prod.mk.injEq, exists_and_left,
    exists_eq', and_true]

end Multimux
