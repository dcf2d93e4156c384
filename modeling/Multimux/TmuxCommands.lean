/-
This file follows the arguments of a launch from the manager to the commands
that tmux makes of them. The manager puts several commands in one argument
vector, with semicolons between them, and tmux ends a command at every argument
that ends in a semicolon. What a user wrote stands among these arguments as it
is, so it arrives as it is exactly if it does not end in a semicolon itself.
-/

import Multimux.Bytes

namespace Multimux

/-! ### The argument vectors -/

/-- A manager, which shares the server of a user or has one of its own. -/
structure TmuxManager where
  namePrefix : Bytes
  socket : Bytes

/-- The tmux name of a session. -/
def TmuxManager.sessionName (manager : TmuxManager) (id : Nat) : Bytes :=
  manager.namePrefix ++ bytes "-" ++ bytes (toString id)

/-- The target that only this name matches. -/
def exactTarget (name : Bytes) : Bytes := bytes "=" ++ name ++ bytes ":"

/-- The options that come before every command. -/
def TmuxManager.baseArgs (manager : TmuxManager) (args : List Bytes) : List Bytes :=
  bytes "-u" :: (if manager.socket = [] then args else bytes "-L" :: manager.socket :: args)

/-- Commands in one vector. -/
def chain : List (List Bytes) → List Bytes
  | [] => []
  | [command] => command
  | command :: next :: rest => command ++ bytes ";" :: chain (next :: rest)

/-- The commands that set the options of a session. -/
def sessionOptions (target : Bytes) : List (List Bytes) :=
  [("remain-on-exit", "on"), ("status", "off"), ("window-size", "manual"), ("mouse", "on")].map
    fun option => [bytes "set-option", bytes "-t", target, bytes option.1, bytes option.2]

/-- The command that sets one entry of an option of the server. -/
def setArrayEntry (option : String) (index : Nat) (value : String) : List Bytes :=
  [bytes "set-option", bytes "-s", bytes option ++ bytes "[" ++ bytes (toString index) ++ bytes "]",
    bytes value]

/-- The commands that set the options of the server, in the order of the releases that know them. -/
def serverOptions : List (List Bytes) :=
  [setArrayEntry "terminal-features" 90 "xterm*:clipboard",
    ["set-option", "-s", "set-clipboard", "on"].map bytes,
    setArrayEntry "terminal-features" 91 "xterm*:extkeys",
    ["set-option", "-s", "extended-keys", "always"].map bytes,
    ["set-option", "-s", "extended-keys-format", "csi-u"].map bytes]

/-- The first process: a server with a session on it. -/
def createArgs (name dir : Bytes) : List Bytes :=
  chain [[bytes "start-server"],
    ["set-option", "-g", "history-limit", "50000"].map bytes,
    [bytes "new-session", bytes "-d", bytes "-s", name, bytes "-c", dir]]

/-- The commands of the second process, which sets the session up. -/
def setupCommands (pathEnv name : Bytes) : List (List Bytes) :=
  [bytes "set-environment", bytes "-t", exactTarget name, bytes "LANG", bytes "en_US.UTF-8"] ::
    (if pathEnv = [] then []
      else [[bytes "set-environment", bytes "-t", exactTarget name, bytes "PATH", pathEnv]]) ++
    sessionOptions (exactTarget name) ++ serverOptions

/-- The third process, which starts the command. -/
def respawnArgs (name dir command : Bytes) : List Bytes :=
  [bytes "respawn-pane", bytes "-k", bytes "-c", dir, bytes "-t", exactTarget name, command]

/-- The arguments that kill a session. -/
def killArgs (name : Bytes) : List Bytes :=
  [bytes "kill-session", bytes "-t", exactTarget name]

/-- `CreateSession`: the argument vectors that it runs, and its error. A process ends with an
error or without one. -/
def TmuxManager.createSession (manager : TmuxManager) (pathEnv : Bytes)
    (run : List Bytes → Option String) (name dir command : Bytes) :
    List (List Bytes) × Option String :=
  let create := manager.baseArgs (createArgs name dir)
  let setup := manager.baseArgs (chain (setupCommands pathEnv name))
  let respawn := manager.baseArgs (respawnArgs name dir command)
  match run create with
  | some error => ([create], some error)
  | none =>
    if command = [] then ([create, setup], none)
    else
      match run respawn with
      | some error => ([create, setup, respawn, manager.baseArgs (killArgs name)], some error)
      | none => ([create, setup, respawn], none)

/-! ### tmux -/

/-- The arguments behind the options of tmux itself. -/
def commandArguments : List Bytes → List Bytes
  | [] => []
  | [argument] => if argument = bytes "-u" then [] else [argument]
  | argument :: next :: rest =>
    if argument = bytes "-u" then commandArguments (next :: rest)
    else if argument = bytes "-L" then commandArguments rest
    else argument :: next :: rest

/-- The argument as the parser takes it, and whether a command ends there. -/
def takeArgument (argument : Bytes) : Bytes × Bool :=
  if argument.getLast? = some 0x3B then
    let front := argument.dropLast
    if front.getLast? = some 0x5C then (front.dropLast ++ [0x3B], false) else (front, true)
  else (argument, false)

/-- The commands of some arguments, behind those of the current command; nothing is left of an
argument that is a semicolon alone. -/
def parseArguments (current : List Bytes) : List Bytes → List (List Bytes)
  | [] => if current = [] then [] else [current]
  | argument :: rest =>
    match takeArgument argument with
    | (taken, false) => parseArguments (current ++ [taken]) rest
    | (taken, true) =>
      (if taken = [] then current else current ++ [taken]) :: parseArguments [] rest

/-- The commands that tmux reads from an argument vector. -/
def tmuxCommands (vector : List Bytes) : List (List Bytes) :=
  parseArguments [] (commandArguments vector)

/-- The commands of a name. -/
def named (name : String) (commands : List (List Bytes)) : List (List Bytes) :=
  commands.filter (·.head? = some (bytes name))

theorem named_append (name : String) (commands others : List (List Bytes)) :
    named name (commands ++ others) = named name commands ++ named name others :=
  List.filter_append ..

/-- The value of an option, the argument behind it. -/
def optionValue (option : String) : List Bytes → Option Bytes
  | [] => none
  | argument :: rest => if argument = bytes option then rest.head? else optionValue option rest

/-- One session is created in the directory, and one pane started there with the command. -/
structure Arrives (dir command : Bytes) (commands : List (List Bytes)) : Prop where
  create : ∃ create, named "new-session" commands = [create] ∧
    optionValue "-c" create = some dir
  respawn : ∃ respawn, named "respawn-pane" commands = [respawn] ∧
    optionValue "-c" respawn = some dir ∧ respawn.getLast? = some command

/-! ### Single arguments -/

/-- The argument does not end in a semicolon. -/
def Plain (argument : Bytes) : Prop := argument.getLast? ≠ some 0x3B

instance Plain.decidable (argument : Bytes) : Decidable (Plain argument) :=
  inferInstanceAs (Decidable (argument.getLast? ≠ some 0x3B))

theorem plain_append (front : Bytes) {back : Bytes} (nonempty : back ≠ []) (plain : Plain back) :
    Plain (front ++ back) := by
  rwa [Plain, List.getLast?_append_of_ne_nil front nonempty]

theorem takeArgument_plain {argument : Bytes} (plain : Plain argument) :
    takeArgument argument = (argument, false) := if_neg plain

/-- An argument that ends in a semicolon is never taken as it is. -/
theorem takeArgument_fst_eq_iff {argument : Bytes} :
    (takeArgument argument).1 = argument ↔ Plain argument := by
  refine ⟨fun same last => ?_, fun plain => by rw [takeArgument_plain plain]⟩
  have nonempty : argument ≠ [] := by
    rintro rfl
    cases last
  have length := congrArg List.length same
  have positive := List.length_pos_of_ne_nil nonempty
  rw [takeArgument, if_pos last] at length
  dsimp only at length
  split_ifs at length with backslash
  · have more : argument.dropLast ≠ [] := by
      intro none
      rw [none] at backslash
      cases backslash
    have longer := List.length_pos_of_ne_nil more
    simp only [List.length_append, List.length_dropLast, List.length_singleton] at length longer
    omega
  · simp only [List.length_dropLast] at length
    omega

theorem bytes_of_digit {letter : Char} (digit : letter.isDigit = true) :
    ∀ byte ∈ String.utf8EncodeChar letter, byte ∉ [0x3B, 0x63] := by
  simp only [Char.isDigit, Bool.and_eq_true, decide_eq_true_eq, UInt32.le_iff_toNat_le] at digit
  have low : 48 ≤ letter.val.toNat := digit.1
  have high : letter.val.toNat ≤ 57 := digit.2
  intro byte member special
  rw [String.utf8EncodeChar, if_pos (Nat.le_trans high (by decide)), List.mem_singleton] at member
  subst member
  simp only [List.mem_cons, List.not_mem_nil, or_false, ← UInt8.toNat_inj, UInt8.reduceToNat,
    UInt8.toNat_ofNat'] at special
  omega

/-- The names of the manager end in a digit. -/
theorem getLast_sessionName (manager : TmuxManager) (id : Nat) :
    ∀ byte ∈ (manager.sessionName id).getLast?, byte ∉ [0x3B, 0x63] := by
  intro byte last
  have digits : (toString id).toList = Nat.toDigits 10 id := by simp
  have nonempty : bytes (toString id) ≠ [] := by
    have some : (toString id).toList ≠ [] := by simp
    obtain ⟨letter, rest, spelled⟩ := List.exists_cons_of_ne_nil some
    rw [bytes, spelled, List.flatMap_cons]
    simp
  rw [TmuxManager.sessionName, List.getLast?_append_of_ne_nil _ nonempty] at last
  obtain ⟨letter, member, encoded⟩ := List.mem_flatMap.mp (List.mem_of_getLast? last)
  rw [digits] at member
  exact bytes_of_digit (Nat.isDigit_of_mem_toDigits (by decide) (by decide) member) byte encoded

theorem plain_sessionName (manager : TmuxManager) (id : Nat) :
    Plain (manager.sessionName id) := fun last =>
  getLast_sessionName manager id _ last (by decide)

theorem sessionName_ne_option (manager : TmuxManager) (id : Nat) :
    manager.sessionName id ≠ bytes "-c" := by
  intro same
  have last := getLast_sessionName manager id
  rw [same] at last
  exact last 0x63 (by decide) (by decide)

theorem plain_exactTarget (name : Bytes) : Plain (exactTarget name) :=
  plain_append _ (by decide) (by decide)

/-! ### Vectors -/

theorem parseArguments_plain {args : List Bytes} (plain : ∀ argument ∈ args, Plain argument)
    (current rest : List Bytes) :
    parseArguments current (args ++ rest) = parseArguments (current ++ args) rest := by
  induction args generalizing current with
  | nil => rw [List.append_nil, List.nil_append]
  | cons argument more inductionHypothesis =>
    rw [List.cons_append, parseArguments, takeArgument_plain (plain argument List.mem_cons_self)]
    dsimp only
    rw [inductionHypothesis fun other member => plain other (List.mem_cons_of_mem _ member),
      List.append_assoc, List.singleton_append]

theorem parseArguments_separator (current rest : List Bytes) :
    parseArguments current (bytes ";" :: rest) = current :: parseArguments [] rest := by
  have ends : takeArgument (bytes ";") = ([], true) := by decide
  rw [parseArguments, ends]
  exact congrArg (· :: _) (if_pos rfl)

/-- A command of which at most the last argument is not plain keeps its name. -/
theorem parseArguments_command {command : List Bytes} (long : 2 ≤ command.length)
    (plain : ∀ argument ∈ command.dropLast, Plain argument) (rest : List Bytes) :
    ∃ taken, taken.head? = command.head? ∧ taken ≠ [] ∧
      (parseArguments [] (command ++ rest) = parseArguments taken rest ∨
        parseArguments [] (command ++ rest) = taken :: parseArguments [] rest) := by
  have nonempty : command ≠ [] := by
    rintro rfl
    simp at long
  have split := List.dropLast_append_getLast nonempty
  generalize command.getLast nonempty = last at split
  cases front : command.dropLast with
  | nil =>
    have length := congrArg List.length front
    rw [List.length_dropLast, List.length_nil] at length
    omega
  | cons first others =>
    rw [front] at split plain
    rw [← split, List.append_assoc, parseArguments_plain plain, List.nil_append,
      List.singleton_append, parseArguments]
    cases takeArgument last with
    | mk taken ended =>
      cases ended with
      | false => exact ⟨first :: others ++ [taken], rfl, by simp, .inl rfl⟩
      | true =>
        refine ⟨_, ?_, ?_, .inr rfl⟩
        · split_ifs <;> rfl
        · split_ifs <;> simp

/-- Other commands in a chain are of another name when only their last arguments are not plain. -/
theorem named_chain {name : String} {commands : List (List Bytes)}
    (other : ∀ command ∈ commands, 2 ≤ command.length ∧ command.head? ≠ some (bytes name) ∧
      ∀ argument ∈ command.dropLast, Plain argument) :
    named name (parseArguments [] (chain commands)) = [] := by
  induction commands with
  | nil => rfl
  | cons command rest inductionHypothesis =>
    obtain ⟨long, differs, plain⟩ := other command List.mem_cons_self
    have later := inductionHypothesis fun another member =>
      other another (List.mem_cons_of_mem _ member)
    cases rest with
    | nil =>
      obtain ⟨taken, head, nonempty, parsed⟩ := parseArguments_command long plain []
      rw [List.append_nil] at parsed
      rw [← head] at differs
      rw [chain]
      rcases parsed with parsed | parsed <;> rw [parsed] <;>
        simp [parseArguments, nonempty, named, differs]
    | cons next more =>
      obtain ⟨taken, head, -, parsed⟩ :=
        parseArguments_command long plain (bytes ";" :: chain (next :: more))
      rw [← head] at differs
      rw [chain]
      rcases parsed with parsed | parsed <;> rw [parsed, parseArguments_separator] <;>
        simp only [named, List.filter_cons] at later ⊢ <;> simp [later, differs]

theorem commandArguments_baseArgs (manager : TmuxManager) {args : List Bytes} {first : Bytes}
    (head : args.head? = some first) (command : first ∉ [bytes "-u", bytes "-L"]) :
    commandArguments (manager.baseArgs args) = args := by
  obtain ⟨rest, rfl⟩ := List.head?_eq_some_iff.mp head
  simp only [List.mem_cons, List.not_mem_nil, or_false, not_or] at command
  have kept : commandArguments (first :: rest) = first :: rest := by
    cases rest with
    | nil => exact if_neg command.1
    | cons next rest => rw [commandArguments, if_neg command.1, if_neg command.2]
  unfold TmuxManager.baseArgs
  split_ifs
  · rw [commandArguments, if_pos rfl, kept]
  · have other : bytes "-L" ≠ bytes "-u" := by decide
    rw [commandArguments, if_pos rfl, commandArguments, if_neg other, if_pos rfl, kept]

/-- The last command of a vector, whose last argument is taken as it is or not. -/
theorem parseArguments_last {front : List Bytes} (plain : ∀ argument ∈ front, Plain argument)
    (last : Bytes) :
    ∃ taken, parseArguments [] (front ++ [last]) = [taken] ∧
      (taken = front ++ [(takeArgument last).1] ∨ taken = front ∧ ¬ Plain last) := by
  rw [parseArguments_plain plain, List.nil_append, parseArguments]
  cases ended : takeArgument last with
  | mk taken ends =>
    cases ends with
    | false => exact ⟨_, by simp [parseArguments], .inl rfl⟩
    | true =>
      refine ⟨if taken = [] then front else front ++ [taken], rfl, ?_⟩
      split_ifs with empty
      · refine .inr ⟨rfl, fun plain => ?_⟩
        rw [takeArgument_plain plain] at ended
        cases ended
      · exact .inl rfl

/-! ### The three processes -/

section Processes

variable (manager : TmuxManager) (id : Nat) (pathEnv dir command : Bytes)

/-- The session is created in the directory exactly if the directory is plain. -/
theorem create_commands : ∃ first second create,
    tmuxCommands (manager.baseArgs (createArgs (manager.sessionName id) dir)) =
      [first, second, create] ∧
    first.head? = some (bytes "start-server") ∧ second.head? = some (bytes "set-option") ∧
    create.head? = some (bytes "new-session") ∧
    (optionValue "-c" create = some dir ↔ Plain dir) := by
  have name : ∀ argument ∈ [bytes "new-session", bytes "-d", bytes "-s", manager.sessionName id,
      bytes "-c"], Plain argument := by
    have plain := plain_sessionName manager id
    simp only [List.forall_mem_cons, List.not_mem_nil, false_implies, implies_true, and_true]
    exact ⟨by decide, by decide, by decide, plain, by decide⟩
  obtain ⟨taken, parsed, shape⟩ := parseArguments_last name dir
  refine ⟨[bytes "start-server"], ["set-option", "-g", "history-limit", "50000"].map bytes, taken,
    ?_, rfl, rfl, ?_, ?_⟩
  · have first : ∀ argument ∈ [bytes "start-server"], Plain argument := by decide
    have second : ∀ argument ∈ ["set-option", "-g", "history-limit", "50000"].map bytes,
        Plain argument := by decide
    have head : (createArgs (manager.sessionName id) dir).head? = some (bytes "start-server") := rfl
    rw [tmuxCommands, commandArguments_baseArgs manager head (by decide), createArgs, chain,
      chain, chain, parseArguments_plain first, List.nil_append, parseArguments_separator,
      parseArguments_plain second, List.nil_append, parseArguments_separator]
    exact congrArg _ (congrArg _ parsed)
  · rcases shape with rfl | ⟨rfl, -⟩ <;> rfl
  · have others : ∀ word ∈ ["new-session", "-d", "-s"], bytes word ≠ bytes "-c" := by decide
    simp only [List.forall_mem_cons, List.not_mem_nil, false_implies, implies_true,
      and_true] at others
    have name := sessionName_ne_option manager id
    rcases shape with rfl | ⟨rfl, rough⟩
    · rw [← takeArgument_fst_eq_iff]
      simp [optionValue, others, name]
    · simp [optionValue, others, name, rough]

/-- The commands that set a session up set something, and at most their values are not plain. -/
theorem setupCommands_shape {setting : List Bytes}
    (member : setting ∈ setupCommands pathEnv (manager.sessionName id)) :
    2 ≤ setting.length ∧
      (setting.head? = some (bytes "set-environment") ∨
        setting.head? = some (bytes "set-option")) ∧
      ∀ argument ∈ setting.dropLast, Plain argument := by
  have target := plain_exactTarget (manager.sessionName id)
  have environment : ∀ entry : String, Plain (bytes entry) → ∀ argument ∈
      [bytes "set-environment", bytes "-t", exactTarget (manager.sessionName id), bytes entry],
      Plain argument := by
    intro entry plain
    simp only [List.forall_mem_cons, List.not_mem_nil, false_implies, implies_true, and_true]
    exact ⟨by decide, by decide, target, plain⟩
  rw [setupCommands, List.mem_append, List.mem_append, List.mem_cons] at member
  rcases member with ((rfl | path) | session) | server
  · exact ⟨by simp, .inl rfl, environment "LANG" (by decide)⟩
  · split_ifs at path
    · cases path
    · cases List.mem_singleton.mp path
      exact ⟨by simp, .inl rfl, environment "PATH" (by decide)⟩
  · obtain ⟨option, there, rfl⟩ := List.mem_map.mp session
    refine ⟨by simp, .inr rfl, ?_⟩
    have names : ∀ option ∈ [("remain-on-exit", "on"), ("status", "off"),
        ("window-size", "manual"), ("mouse", "on")], Plain (bytes option.1) := by decide
    simp only [List.dropLast_cons_cons, List.dropLast_singleton, List.forall_mem_cons,
      List.not_mem_nil, false_implies, implies_true, and_true]
    exact ⟨by decide, by decide, target, names option there⟩
  · have each : ∀ setting ∈ serverOptions, 2 ≤ setting.length ∧
        setting.head? = some (bytes "set-option") ∧
        ∀ argument ∈ setting.dropLast, Plain argument := by decide
    obtain ⟨long, head, plain⟩ := each setting server
    exact ⟨long, .inr head, plain⟩

theorem setup_commands {name : String}
    (other : bytes name ∉ [bytes "set-environment", bytes "set-option"]) :
    named name (tmuxCommands (manager.baseArgs (chain (setupCommands pathEnv
      (manager.sessionName id))))) = [] := by
  have head : (chain (setupCommands pathEnv (manager.sessionName id))).head? =
      some (bytes "set-environment") := by
    unfold setupCommands
    split_ifs <;> rfl
  rw [tmuxCommands, commandArguments_baseArgs manager head (by decide)]
  refine named_chain fun setting member => ?_
  obtain ⟨long, heads, plain⟩ := setupCommands_shape manager id pathEnv member
  simp only [List.mem_cons, List.not_mem_nil, or_false, not_or] at other
  refine ⟨long, fun same => ?_, plain⟩
  rcases heads with head | head <;> rw [head, Option.some.injEq] at same
  · exact other.1 same.symm
  · exact other.2 same.symm

/-- The command is started in the directory exactly if it is plain. -/
theorem respawn_commands (plain : Plain dir) : ∃ respawn,
    tmuxCommands (manager.baseArgs (respawnArgs (manager.sessionName id) dir command)) =
      [respawn] ∧ respawn.head? = some (bytes "respawn-pane") ∧
    optionValue "-c" respawn = some dir ∧ (respawn.getLast? = some command ↔ Plain command) := by
  have target := plain_exactTarget (manager.sessionName id)
  have front : ∀ argument ∈ [bytes "respawn-pane", bytes "-k", bytes "-c", dir, bytes "-t",
      exactTarget (manager.sessionName id)], Plain argument := by
    simp only [List.forall_mem_cons, List.not_mem_nil, false_implies, implies_true, and_true]
    exact ⟨by decide, by decide, by decide, plain, by decide, target⟩
  obtain ⟨taken, parsed, shape⟩ := parseArguments_last front command
  have head : (respawnArgs (manager.sessionName id) dir command).head? =
      some (bytes "respawn-pane") := rfl
  refine ⟨taken, ?_, ?_, ?_, ?_⟩
  · rw [tmuxCommands, commandArguments_baseArgs manager head (by decide)]
    exact parsed
  · rcases shape with rfl | ⟨rfl, -⟩ <;> rfl
  · have others : ∀ word ∈ ["respawn-pane", "-k"], bytes word ≠ bytes "-c" := by decide
    simp only [List.forall_mem_cons, List.not_mem_nil, false_implies, implies_true,
      and_true] at others
    rcases shape with rfl | ⟨rfl, -⟩ <;> simp [optionValue, others]
  · rcases shape with rfl | ⟨rfl, rough⟩
    · rw [List.getLast?_concat, Option.some.injEq, takeArgument_fst_eq_iff]
    · refine iff_of_false (fun last => ?_) rough
      obtain rfl : exactTarget (manager.sessionName id) = command := Option.some.inj last
      exact rough target

/-- What the three processes make of the directory and the command. -/
theorem arrives_iff : Arrives dir command ([createArgs (manager.sessionName id) dir,
      chain (setupCommands pathEnv (manager.sessionName id)),
      respawnArgs (manager.sessionName id) dir command].flatMap
        fun args => tmuxCommands (manager.baseArgs args)) ↔ Plain dir ∧ Plain command := by
  obtain ⟨first, second, create, created, firstHead, secondHead, createHead, createDir⟩ :=
    create_commands manager id dir
  have setup : ∀ name ∈ ["new-session", "respawn-pane"],
      bytes name ∉ [bytes "set-environment", bytes "set-option"] := by decide
  simp only [List.forall_mem_cons, List.not_mem_nil, false_implies, implies_true,
    and_true] at setup
  have news := setup_commands manager id pathEnv setup.1
  have panes := setup_commands manager id pathEnv setup.2
  have own : named "new-session" [first, second, create] = [create] := by
    simp only [named, List.filter_cons, firstHead, secondHead, createHead]
    rfl
  have none : named "respawn-pane" [first, second, create] = [] := by
    simp only [named, List.filter_cons, firstHead, secondHead, createHead]
    rfl
  simp only [List.flatMap_cons, List.flatMap_nil, List.append_nil, created]
  constructor
  · rintro ⟨⟨made, one, there⟩, ⟨started, pane, -, last⟩⟩
    rw [named_append, own, List.singleton_append, List.cons.injEq] at one
    obtain ⟨rfl, -⟩ := one
    have plain := createDir.mp there
    obtain ⟨respawn, parsed, head, -, arrives⟩ := respawn_commands manager id dir command plain
    have self : named "respawn-pane" [respawn] = [respawn] := by simp [named, head]
    rw [named_append, named_append, none, panes, parsed, self, List.nil_append, List.nil_append,
      List.singleton_inj] at pane
    exact ⟨plain, arrives.mp (pane ▸ last)⟩
  · rintro ⟨plain, plainCommand⟩
    obtain ⟨respawn, parsed, head, there, arrives⟩ :=
      respawn_commands manager id dir command plain
    have self : named "respawn-pane" [respawn] = [respawn] := by simp [named, head]
    have other : named "new-session" [respawn] = [] := by
      simp only [named, List.filter_cons, head]
      rfl
    refine ⟨⟨create, ?_, createDir.mpr plain⟩, ⟨respawn, ?_, there, arrives.mpr plainCommand⟩⟩
    · rw [named_append, named_append, own, news, parsed, other]
      rfl
    · rw [named_append, named_append, none, panes, parsed, self]
      rfl

/-- What tmux makes of a launch of which no process fails: it arrives as it was written exactly if
neither the directory nor the command ends in a semicolon. -/
theorem createSession_arrives_iff (run : List Bytes → Option String)
    (succeeds : ∀ vector, run vector = none) (nonempty : command ≠ []) :
    Arrives dir command ((manager.createSession pathEnv run (manager.sessionName id) dir
      command).1.flatMap tmuxCommands) ↔
      dir.getLast? ≠ some 0x3B ∧ command.getLast? ≠ some 0x3B := by
  simp only [TmuxManager.createSession, succeeds, if_neg nonempty]
  exact arrives_iff manager id pathEnv dir command

end Processes

/-- The manager of the daemon. -/
def mmManager : TmuxManager := ⟨bytes "mm", []⟩

theorem editor_arrives :
    Arrives (bytes "/tmp") (bytes "vi; true") ((mmManager.createSession (bytes "/bin")
      (fun _ => none) (mmManager.sessionName 1) (bytes "/tmp") (bytes "vi; true")).1.flatMap
      tmuxCommands) :=
  (createSession_arrives_iff mmManager 1 (bytes "/bin") (bytes "/tmp") (bytes "vi; true")
    (fun _ => none) (fun _ => rfl) (by decide)).mpr (by decide)

/-- A command that ends in a semicolon behind a backslash loses the backslash. -/
theorem find_misread :
    ¬ ∀ (manager : TmuxManager) (id : Nat) (pathEnv dir command : Bytes)
        (run : List Bytes → Option String), (∀ vector, run vector = none) → command ≠ [] →
        Arrives dir command ((manager.createSession pathEnv run (manager.sessionName id) dir
          command).1.flatMap tmuxCommands) := by
  intro always
  have arrives := always mmManager 1 (bytes "/bin") (bytes "/tmp")
    (bytes "find . -exec wc -l \\;") (fun _ => none) (fun _ => rfl) (by decide)
  have plain := (arrives_iff mmManager 1 (bytes "/bin") (bytes "/tmp")
    (bytes "find . -exec wc -l \\;")).mp arrives
  exact plain.2 (by decide)

end Multimux
