/-
This file compares the two ways in which a unit file quotes text. The values of
the environment are escaped; the path of the executable stands between its
quotes as it is. Reading never lengthens a word, and it shortens one at every
escape, so a path is read back as itself exactly if it holds nothing that is
read as an escape.
-/

import Multimux.ServiceUnit

namespace Multimux

/-! ### Quoted words -/

/-- The word up to the closing quote, as it is written, and what follows the quote. A backslash
takes the next byte with it. -/
def quotedWord : Bytes → Option (Bytes × Bytes)
  | [] => none
  | [byte] => if byte = 0x22 then some ([], []) else none
  | byte :: next :: rest =>
    if byte = 0x22 then some ([], next :: rest)
    else if byte = 0x5C then
      (quotedWord rest).map fun read => (byte :: next :: read.1, read.2)
    else (quotedWord (next :: rest)).map fun read => (byte :: read.1, read.2)

/-- The first word of the line that starts the daemon, decoded, and what follows it. -/
def execStartWord (content : Bytes) : Option (Bytes × Bytes) :=
  ((splitLines content).findSome? (cutPrefix · (bytes "ExecStart=\""))).bind fun rest =>
    (quotedWord rest).map fun read => (systemdUnescape read.1, read.2)

/-- The path holds no backslash, no quote and no two percent signs in a row. -/
structure Literal (path : Bytes) : Prop where
  backslash : 0x5C ∉ path
  quote : 0x22 ∉ path
  percents : ¬ [0x25, 0x25] <:+: path

/-! ### Reading -/

theorem length_systemdUnescape (text : Bytes) : (systemdUnescape text).length ≤ text.length := by
  fun_induction systemdUnescape text with
  | case1 => exact Nat.le_refl _
  | case2 byte => exact Nat.le_refl _
  | case3 next rest inductionHypothesis =>
    simp only [List.length_cons]
    omega
  | case4 byte next rest notBackslash both inductionHypothesis =>
    simp only [List.length_cons]
    omega
  | case5 byte next rest backslash both inductionHypothesis =>
    simp only [List.length_cons] at inductionHypothesis ⊢
    omega

/-- Two percent signs in a row are read as one. -/
theorem length_systemdUnescape_percents {text : Bytes} (backslash : 0x5C ∉ text)
    (percents : [0x25, 0x25] <:+: text) : (systemdUnescape text).length < text.length := by
  fun_induction systemdUnescape text with
  | case1 => cases List.eq_nil_of_infix_nil percents
  | case2 byte =>
    have length := percents.length_le
    simp at length
  | case3 next rest => exact absurd List.mem_cons_self backslash
  | case4 byte next rest notBackslash both inductionHypothesis =>
    have shorter := length_systemdUnescape rest
    simp only [List.length_cons]
    omega
  | case5 byte next rest notBackslash both inductionHypothesis =>
    rcases List.infix_cons_iff.mp percents with front | later
    · simp only [List.cons_prefix_cons] at front
      exact absurd ⟨front.1.symm, front.2.1.symm⟩ both
    · have shorter := inductionHypothesis (fun member =>
        backslash (List.mem_cons_of_mem _ member)) later
      simp only [List.length_cons] at shorter ⊢
      omega

theorem systemdUnescape_literal {text : Bytes} (literal : Literal text) :
    systemdUnescape text = text := by
  obtain ⟨backslash, -, percents⟩ := literal
  fun_induction systemdUnescape text with
  | case1 => rfl
  | case2 byte => rfl
  | case3 next rest => exact absurd List.mem_cons_self backslash
  | case4 byte next rest notBackslash both inductionHypothesis =>
    exact absurd ⟨[], rest, by rw [both.1, both.2]; rfl⟩ percents
  | case5 byte next rest notBackslash both inductionHypothesis =>
    rw [inductionHypothesis (fun member => backslash (List.mem_cons_of_mem _ member))
      fun later => percents (later.trans (List.suffix_cons _ _).isInfix)]

/-- What is read of a text is its front, and a backslash in there is read away. -/
theorem quotedWord_eq_some {text word rest : Bytes} (read : quotedWord text = some (word, rest)) :
    text = word ++ 0x22 :: rest ∧ (0x22 ∈ word → 0x5C ∈ word) ∧
      (0x5C ∈ word → (systemdUnescape word).length < word.length) := by
  fun_induction quotedWord text generalizing word with
  | case1 => cases read
  | case2 =>
    cases read
    exact ⟨rfl, by simp, by simp⟩
  | case3 => cases read
  | case4 next rest' =>
    cases read
    exact ⟨rfl, by simp, by simp⟩
  | case5 next rest' notQuote inductionHypothesis =>
    obtain ⟨⟨inner, tail⟩, found, same⟩ := Option.map_eq_some_iff.mp read
    cases same
    obtain ⟨rfl, -, -⟩ := inductionHypothesis found
    refine ⟨rfl, fun _ => List.mem_cons_self, fun _ => ?_⟩
    have shorter := length_systemdUnescape inner
    simp only [systemdUnescape, ↓reduceIte, List.length_cons]
    omega
  | case6 byte next rest' notQuote notBackslash inductionHypothesis =>
    obtain ⟨⟨inner, tail⟩, found, same⟩ := Option.map_eq_some_iff.mp read
    cases same
    obtain ⟨split, quotes, escapes⟩ := inductionHypothesis found
    refine ⟨by rw [split]; rfl, fun member => ?_, fun member => ?_⟩
    · rcases List.mem_cons.mp member with same | later
      · exact absurd same.symm notQuote
      · exact List.mem_cons_of_mem _ (quotes later)
    · rcases List.mem_cons.mp member with same | later
      · exact absurd same.symm notBackslash
      · have shorter := escapes later
        cases inner with
        | nil => cases later
        | cons after more =>
          have bound := length_systemdUnescape more
          rw [systemdUnescape]
          split_ifs <;> simp only [List.length_cons] at shorter ⊢ <;> omega

theorem quotedWord_cons {byte : UInt8} (notQuote : byte ≠ 0x22) (notBackslash : byte ≠ 0x5C)
    (rest : Bytes) : quotedWord (byte :: rest) =
      (quotedWord rest).map fun read => (byte :: read.1, read.2) := by
  cases rest with
  | nil => simp [quotedWord, notQuote]
  | cons next rest => rw [quotedWord, if_neg notQuote, if_neg notBackslash]

theorem quotedWord_literal {text : Bytes} (literal : Literal text) (rest : Bytes) :
    quotedWord (text ++ 0x22 :: rest) = some (text, rest) := by
  obtain ⟨backslash, quote, -⟩ := literal
  induction text with
  | nil => cases rest <;> rfl
  | cons byte more inductionHypothesis =>
    rw [List.mem_cons, not_or] at backslash quote
    rw [List.cons_append, quotedWord_cons (Ne.symm quote.1) (Ne.symm backslash.1),
      inductionHypothesis backslash.2 quote.2]
    rfl

/-- A text between quotes is read back as itself exactly if it is literal. -/
theorem quotedWord_iff {text rest : Bytes} :
    (quotedWord (text ++ 0x22 :: rest)).map (fun read => (systemdUnescape read.1, read.2)) =
      some (text, rest) ↔ Literal text := by
  constructor
  · intro read
    obtain ⟨⟨word, tail⟩, found, same⟩ := Option.map_eq_some_iff.mp read
    simp only [Prod.mk.injEq] at same
    obtain ⟨decoded, rfl⟩ := same
    obtain ⟨split, quotes, escapes⟩ := quotedWord_eq_some found
    obtain rfl : text = word := List.append_cancel_right split
    have backslash : 0x5C ∉ text := fun member => by
      have shorter := escapes member
      rw [decoded] at shorter
      exact Nat.lt_irrefl _ shorter
    refine ⟨backslash, fun member => backslash (quotes member), fun percents => ?_⟩
    have shorter := length_systemdUnescape_percents backslash percents
    rw [decoded] at shorter
    exact Nat.lt_irrefl _ shorter
  · intro literal
    rw [quotedWord_literal literal, Option.map_some, systemdUnescape_literal literal]

/-! ### The unit -/

/-- The word that starts the daemon is what stands behind the opening quote. -/
theorem execStartWord_template {execPath : Bytes} (free : newline ∉ execPath) {env : List EnvVar}
    (valid : ∀ entry ∈ env, validateEnv entry = .ok ()) :
    execStartWord (systemdTemplate execPath (env.flatMap (renderVar .linux))) =
      (quotedWord (execPath ++ 0x22 :: bytes " serve")).map fun read =>
        (systemdUnescape read.1, read.2) := by
  have head : systemdHead.findSome? (cutPrefix · (bytes "ExecStart=\"")) = none := by decide
  have line : cutPrefix (execStartLine execPath) (bytes "ExecStart=\"") =
      some (execPath ++ 0x22 :: bytes " serve") := by
    rw [execStartLine, List.append_assoc, cutPrefix_append]
    rfl
  rw [execStartWord, splitLines_systemdTemplate free valid, List.append_assoc, List.append_assoc,
    List.findSome?_append, head, Option.none_or, List.cons_append, List.findSome?_cons, line]
  rfl

/-- The daemon is started from the path that the unit was rendered for exactly if the path is
literal. -/
theorem execStart_reads_iff {home path content : Bytes} {options : UnitOptions}
    (rendered : unitContent .linux home options = .ok (path, content))
    (free : newline ∉ options.execPath) :
    execStartWord content = some (options.execPath, bytes " serve") ↔
      Literal options.execPath := by
  obtain ⟨-, valid, rfl⟩ := unitContent_linux rendered
  rw [execStartWord_template free valid]
  exact quotedWord_iff

theorem entries_of_defaults (options : UnitOptions) (pathEnv : options.pathEnv = [])
    (env : options.env = []) : ∀ entry ∈ options.entries, validateEnv entry = .ok () := by
  intro entry member
  rw [UnitOptions.entries, if_pos pathEnv, env, List.mem_singleton] at member
  rw [member]
  decide

/-- A path with a space in it. -/
def spacedOptions : UnitOptions := ⟨bytes "/home/user/my tools/multimux", [], [], []⟩

theorem spaced_reads :
    ∃ path content, unitContent .linux (bytes "/home/user") spacedOptions = .ok (path, content) ∧
      execStartWord content = some (bytes "/home/user/my tools/multimux", bytes " serve") := by
  have home : bytes "/home/user" ≠ [] := by decide
  obtain ⟨path, content, rendered⟩ :=
    exists_unitContent_linux home (entries_of_defaults spacedOptions rfl rfl)
  have free : newline ∉ spacedOptions.execPath := by decide
  have literal : Literal spacedOptions.execPath := ⟨by decide, by decide, by decide +kernel⟩
  exact ⟨path, content, rendered, (execStart_reads_iff rendered free).mpr literal⟩

/-- A path with two percent signs is started as one with one of them. -/
theorem execStart_percents_misread :
    ¬ ∀ (home path content : Bytes) (options : UnitOptions),
      unitContent .linux home options = .ok (path, content) → newline ∉ options.execPath →
      execStartWord content = some (options.execPath, bytes " serve") := by
  intro always
  obtain ⟨options, execPath, pathEnv, env⟩ : ∃ options : UnitOptions,
      options.execPath = bytes "/opt/100%%/multimux" ∧ options.pathEnv = [] ∧ options.env = [] :=
    ⟨⟨_, [], [], []⟩, rfl, rfl, rfl⟩
  have home : bytes "/home/user" ≠ [] := by decide
  have valid := entries_of_defaults options pathEnv env
  obtain ⟨path, content, rendered⟩ := exists_unitContent_linux home valid
  have free : newline ∉ options.execPath := by
    rw [execPath]
    decide
  have reads := always _ _ _ _ rendered free
  obtain ⟨-, -, rfl⟩ := unitContent_linux rendered
  rw [execStartWord_template free valid, quotedWord_iff] at reads
  have percents := reads.percents
  rw [execPath] at percents
  exact absurd percents (by decide +kernel)

end Multimux
