/-
This file proves that splitting a tool's command undoes joining the commands
of its group. A separator inside a command is escaped from left to right, so
an escaped text never starts a separator of its own: a semicolon of it is
followed by a letter or by the backslash of an escape, and what stands before
an escape is copied, also when it is a backslash. Scanning an escaped command
therefore adds the command to the segment and stops before the joint.
-/

import Multimux.SessionTable

namespace Multimux

/-! ### Joining a group -/

/-- `;;`, what separates the commands of a group. -/
def commandSep : List Char := [';', ';']

/-- The command with a backslash before each separator, replaced from left to right. -/
def escapeSeparators : List Char → List Char
  | ';' :: ';' :: rest => '\\' :: ';' :: ';' :: escapeSeparators rest
  | letter :: rest => letter :: escapeSeparators rest
  | [] => []

/-- The commands of a group as one command field. -/
def joinCommands (commands : List (List Char)) : List Char :=
  (' ' :: commandSep ++ [' ']).intercalate (commands.map escapeSeparators)

/-! ### Trimming -/

/-- A text of white space alone. -/
def Blank (text : List Char) : Prop := ∀ letter ∈ text, isSpace letter = true

theorem trimSpace_blank_append {blank text : List Char} (white : Blank blank) :
    trimSpace (blank ++ text) = trimSpace text := by
  simp only [trimSpace, List.dropWhile_append_of_pos white]

theorem trimSpace_append_space (text : List Char) : trimSpace (text ++ [' ']) = trimSpace text := by
  have white : isSpace ' ' = true := by decide
  simp only [trimSpace, List.dropWhile_append]
  split
  next nothing =>
    rw [List.isEmpty_iff.mp nothing, List.dropWhile_cons_of_pos white]
    rfl
  next => exact List.rdropWhile_concat_pos _ _ _ white

theorem trimSpace_eq_nil_iff {text : List Char} : trimSpace text = [] ↔ Blank text := by
  rw [trimSpace, List.rdropWhile_eq_nil_iff]
  constructor
  · intro rest letter member
    rw [← List.takeWhile_append_dropWhile (p := isSpace) (l := text), List.mem_append] at member
    rcases member with white | later
    · exact List.mem_takeWhile_imp white
    · exact rest letter later
  · intro blank letter member
    exact blank letter ((List.dropWhile_suffix isSpace).subset member)

theorem trimSpace_trimSpace (text : List Char) : trimSpace (trimSpace text) = trimSpace text := by
  by_cases nothing : trimSpace text = []
  · rw [nothing]
    rfl
  · have first : (trimSpace text).dropWhile isSpace = trimSpace text := by
      have kept : text.dropWhile isSpace ≠ [] := by
        intro empty
        exact nothing (by rw [trimSpace, empty]; rfl)
      obtain ⟨letter, rest, split⟩ := List.exists_cons_of_ne_nil kept
      have solid : isSpace letter = false := by
        have head := List.head?_dropWhile_not isSpace text
        rwa [split] at head
      obtain ⟨tail, same⟩ := List.rdropWhile_prefix isSpace (text.dropWhile isSpace)
      rw [← trimSpace, split] at same
      obtain ⟨head, back, parts⟩ := List.exists_cons_of_ne_nil nothing
      rw [parts, List.cons_append] at same
      rw [← (List.cons.inj same).1] at solid
      rw [parts, List.dropWhile_cons_of_neg (Bool.not_eq_true _ ▸ solid)]
    rw [trimSpace, first]
    exact List.rdropWhile_idempotent _ _

/-! ### Scanning an escaped command -/

theorem commandSegments_letter {current rest : List Char} {letter : Char}
    (plain : ¬ commandSep <+: letter :: rest) (unescaped : letter = '\\' → ¬ commandSep <+: rest) :
    commandSegments current (letter :: rest) = commandSegments (current ++ [letter]) rest := by
  rw [commandSegments]
  · intro later slash split
    exact unescaped slash (split ▸ List.prefix_append commandSep later)
  · intro later semicolon split
    rw [semicolon, split] at plain
    exact plain (List.prefix_append commandSep later)

/-- An escaped command starts as the command does, up to the backslash of an escape. -/
theorem escapeSeparators_head {text tail : List Char} (first : text.head? ≠ some ';')
    (joint : tail.head? ≠ some ';') : (escapeSeparators text ++ tail).head? ≠ some ';' := by
  fun_cases escapeSeparators text with
  | case1 rest => exact absurd rfl first
  | case2 letter rest => exact first
  | case3 => exact joint

theorem not_commandSep_prefix {text : List Char} (first : text.head? ≠ some ';') (letter : Char) :
    ¬ commandSep <+: letter :: text := by
  intro starts
  obtain ⟨rest, same⟩ := starts
  have later : ';' :: rest = text := (List.cons.inj same).2
  exact first (later ▸ rfl)

/-- No separator starts an escaped command. -/
theorem not_commandSep_prefix_escaped {text tail : List Char} (joint : tail.head? ≠ some ';') :
    ¬ commandSep <+: escapeSeparators text ++ tail := by
  fun_cases escapeSeparators text with
  | case1 rest => simp [commandSep]
  | case2 letter rest different =>
    rcases eq_or_ne letter ';' with semicolon | other
    · have first : rest.head? ≠ some ';' := by
        intro starts
        obtain ⟨later, split⟩ := List.head?_eq_some_iff.mp starts
        exact different later semicolon split
      exact not_commandSep_prefix (escapeSeparators_head first joint) letter
    · simp [commandSep, other.symm]
  | case3 =>
    intro starts
    obtain ⟨rest, same⟩ := starts
    exact joint (by rw [← List.nil_append tail, ← same]; rfl)

/-- Scanning an escaped command adds the command to the segment. -/
theorem commandSegments_escaped {text tail : List Char} (joint : tail.head? ≠ some ';')
    (current : List Char) : commandSegments current (escapeSeparators text ++ tail) =
      commandSegments (current ++ text) tail := by
  fun_induction escapeSeparators text generalizing current with
  | case1 rest inductionHypothesis =>
    rw [List.cons_append, List.cons_append, List.cons_append, commandSegments,
      inductionHypothesis, List.append_assoc, List.cons_append, List.cons_append, List.nil_append]
  | case2 letter rest different inductionHypothesis =>
    have whole : escapeSeparators (letter :: rest) = letter :: escapeSeparators rest :=
      escapeSeparators.eq_2 letter rest different
    have plain := @not_commandSep_prefix_escaped (letter :: rest) tail joint
    rw [whole, List.cons_append] at plain
    rw [List.cons_append,
      commandSegments_letter plain fun _ => not_commandSep_prefix_escaped joint,
      inductionHypothesis, List.append_assoc, List.singleton_append]
  | case3 => rw [List.nil_append, List.append_nil]

/-! ### Splitting a joined group -/

theorem joinCommands_cons_cons (command next : List Char) (rest : List (List Char)) :
    joinCommands (command :: next :: rest) =
      escapeSeparators command ++ ' ' :: ';' :: ';' :: ' ' :: joinCommands (next :: rest) := by
  simp only [joinCommands, List.map_cons, List.intercalate_cons_cons, List.append_assoc]
  rfl

theorem commandSegments_join {commands : List (List Char)} (nonempty : commands ≠ [])
    (trimmed : ∀ command ∈ commands, trimSpace command = command) {blank : List Char}
    (white : Blank blank) : commandSegments blank (joinCommands commands) = commands := by
  induction commands generalizing blank with
  | nil => exact absurd rfl nonempty
  | cons command rest inductionHypothesis =>
    have own : trimSpace (blank ++ command) = command := by
      rw [trimSpace_blank_append white]
      exact trimmed command List.mem_cons_self
    cases rest with
    | nil =>
      have whole : joinCommands [command] = escapeSeparators command ++ [] := by
        simp only [joinCommands, List.map_singleton, List.intercalate_singleton, List.append_nil]
      rw [whole, commandSegments_escaped (by simp), commandSegments, own]
    | cons next rest =>
      have later : ∀ command ∈ next :: rest, trimSpace command = command :=
        fun command member => trimmed command (List.mem_cons_of_mem _ member)
      have joint : Blank [' '] := by simp [Blank, isSpace]
      rw [joinCommands_cons_cons, commandSegments_escaped (by simp),
        commandSegments_letter (by simp [commandSep]) (by simp), commandSegments,
        commandSegments_letter (by simp [commandSep]) (by simp), List.nil_append,
        inductionHypothesis (List.cons_ne_nil _ _) later joint, trimSpace_append_space, own]

theorem splitCommand_joinCommands {commands : List (List Char)} (nonempty : commands ≠ [])
    (trimmed : ∀ command ∈ commands, trimSpace command = command)
    (solid : ∀ command ∈ commands, ¬ Blank command) :
    splitCommand (joinCommands commands) = commands := by
  have white : Blank [] := by simp [Blank]
  have kept : commands.filter (· ≠ []) = commands := by
    rw [List.filter_eq_self]
    intro command member
    simp only [ne_eq, decide_not, Bool.not_eq_true', decide_eq_false_iff_not]
    intro empty
    exact solid command member (empty ▸ white)
  rw [splitCommand, commandSegments_join nonempty trimmed white, kept]
  exact if_neg nonempty

theorem commandSegments_plain {text : List Char} (plain : ¬ commandSep <:+: text)
    (current : List Char) : commandSegments current text = [trimSpace (current ++ text)] := by
  induction text generalizing current with
  | nil => rw [commandSegments, List.append_nil]
  | cons letter rest inductionHypothesis =>
    have later : ¬ commandSep <:+: rest := fun inside => plain (List.infix_cons inside)
    rw [commandSegments_letter (fun starts => plain starts.isInfix)
        fun _ starts => later starts.isInfix,
      inductionHypothesis later, List.append_assoc, List.singleton_append]

theorem splitCommand_plain {text : List Char} (plain : ¬ commandSep <:+: text) :
    splitCommand text = [trimSpace text] := by
  rw [splitCommand, commandSegments_plain plain, List.nil_append]
  by_cases nothing : trimSpace text = []
  · rw [nothing]
    rfl
  · simp [nothing]

theorem exists_of_mem_commandSegments {current text segment : List Char}
    (member : segment ∈ commandSegments current text) : ∃ scanned, segment = trimSpace scanned := by
  fun_induction commandSegments current text with
  | case1 current rest inductionHypothesis => exact inductionHypothesis member
  | case2 current rest inductionHypothesis =>
    rcases List.mem_cons.mp member with rfl | later
    · exact ⟨current, rfl⟩
    · exact inductionHypothesis later
  | case3 current letter rest _ _ inductionHypothesis => exact inductionHypothesis member
  | case4 current => exact ⟨current, List.mem_singleton.mp member⟩

theorem splitCommand_solid (text : List Char) :
    splitCommand text ≠ [] ∧
      (splitCommand text = [[]] ∨ ∀ segment ∈ splitCommand text, ¬ Blank segment) := by
  rw [splitCommand]
  split
  next nothing => exact ⟨List.cons_ne_nil _ _, Or.inl rfl⟩
  next kept =>
    refine ⟨kept, Or.inr fun segment member => ?_⟩
    obtain ⟨listed, given⟩ := List.mem_filter.mp member
    obtain ⟨scanned, rfl⟩ := exists_of_mem_commandSegments listed
    rw [← trimSpace_eq_nil_iff, trimSpace_trimSpace]
    simpa using given

/-- Splitting gives back every joined group, leaves a command without a separator whole, and
never gives a blank command beside others. -/
theorem splitCommand_inverts_join (text : List Char) (commands : List (List Char)) :
    (commands ≠ [] → (∀ command ∈ commands, ¬ Blank command ∧ trimSpace command = command) →
      splitCommand (joinCommands commands) = commands) ∧
    (¬ commandSep <:+: text → splitCommand text = [trimSpace text]) ∧
    splitCommand text ≠ [] ∧
    (splitCommand text = [[]] ∨ ∀ segment ∈ splitCommand text, ¬ Blank segment) := by
  refine ⟨fun nonempty all => ?_, splitCommand_plain, splitCommand_solid text⟩
  exact splitCommand_joinCommands nonempty (fun command member => (all command member).2)
    fun command member => (all command member).1

theorem splitCommand_inverts_join_semicolons :
    splitCommand
        (joinCommands [['a', ';', ';', ';'], ['\\', ';', ';', '\\'], [';', ';', ';', ';']]) =
      [['a', ';', ';', ';'], ['\\', ';', ';', '\\'], [';', ';', ';', ';']] ∧
    splitCommand [' ', 'a', ';', 'b'] = [['a', ';', 'b']] := by
  have group := (splitCommand_inverts_join []
    [['a', ';', ';', ';'], ['\\', ';', ';', '\\'], [';', ';', ';', ';']]).1 (List.cons_ne_nil _ _)
    (by simp [Blank, isSpace, trimSpace, List.rdropWhile])
  exact ⟨group, (splitCommand_inverts_join [' ', 'a', ';', 'b'] []).2.1 (by decide)⟩

end Multimux
