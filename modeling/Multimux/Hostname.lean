/-
This file models the names a daemon answers to: how a configured name is folded
to the form a browser sends back, which folded names are valid, and the RP ID
that a name derives. Folding is not idempotent on arbitrary text, since it
drops one trailing dot and trims only before that, but a valid name is its own
folded form, so folding a name that turns out valid settles it.
-/

import Multimux.Subdir

namespace Multimux

/-- What the standard library's tables say: the lower case of a character beyond ASCII, and how
`%q` prints a text and a character. -/
structure TextTables where
  lower : Char → Char
  quote : List Char → String
  quoteRune : Char → String

/-- A character table without anything beyond ASCII. -/
def asciiTables : TextTables where
  lower := id
  quote text := "\"" ++ String.ofList text ++ "\""
  quoteRune letter := "'" ++ String.ofList [letter] ++ "'"

/-- The number of a run of decimal digits. -/
def parseDigits (digits : List Char) : Option Nat :=
  if digits ≠ [] ∧ digits.all Char.isDigit then
    some (digits.foldl (fun value digit => 10 * value + (digit.toNat - '0'.toNat)) 0)
  else none

/-- How many numbers of 64 bits there are on either side of zero. -/
def int64Half : Nat := 0x8000000000000000

/-- `strconv.ParseInt` to 64 bits, and `strconv.Atoi`. -/
def parseInt (text : List Char) : Option Int :=
  match text with
  | '-' :: digits => (parseDigits digits).bind fun value =>
    if value ≤ int64Half then some (-(value : Int)) else none
  | '+' :: digits => (parseDigits digits).bind fun value =>
    if value < int64Half then some (value : Int) else none
  | digits => (parseDigits digits).bind fun value =>
    if value < int64Half then some (value : Int) else none

section Names

variable (tables : TextTables)

/-! ### Folding -/

/-- `unicode.ToLower`. -/
def lowerRune (letter : Char) : Char :=
  if letter.toNat < 128 then letter.toLower else tables.lower letter

/-- `strings.ToLower`. -/
def toLower (text : List Char) : List Char := text.map (lowerRune tables)

/-- `strings.TrimSuffix` of one dot. -/
def trimDot (text : List Char) : List Char :=
  if text.getLast? = some '.' then text.dropLast else text

/-- A host as it is compared: trimmed, in lower case and without the final dot. -/
def canonicalHost (host : List Char) : List Char := trimDot (toLower tables (trimSpace host))

/-! ### Validity -/

/-- The characters of a name. -/
def isNameRune (letter : Char) : Bool :=
  'a' ≤ letter ∧ letter ≤ 'z' ∨ '0' ≤ letter ∧ letter ≤ '9' ∨ letter = '-' ∨ letter = '_'

/-- The length of a text in bytes. -/
def byteLength (text : List Char) : Nat :=
  text.foldl (fun bytes letter => bytes + letter.utf8Size) 0

/-- An error that names the name. -/
def nameError (name : List Char) (fault : String) : String :=
  "name " ++ tables.quote name ++ fault

/-- A label of a name: not empty, not too long, of letters, digits and inner hyphens. -/
def validateLabel (name label : List Char) : Except String Unit :=
  if label = [] then .error (nameError tables name " has an empty label")
  else if 63 < byteLength label then
    .error (nameError tables name " has a label longer than 63 characters")
  else if label.head? = some '-' ∨ label.getLast? = some '-' then
    .error (nameError tables name " has a label starting or ending with a hyphen")
  else
    match label.find? fun letter => ¬ isNameRune letter with
    | some letter => .error (nameError tables name
        (" contains invalid character " ++ tables.quoteRune letter))
    | none => .ok ()

/-- The labels one after the other, up to the first that is wrong. -/
def validateLabels (name : List Char) : List (List Char) → Except String Unit
  | [] => .ok ()
  | label :: rest =>
    match validateLabel tables name label with
    | .error error => .error error
    | .ok () => validateLabels name rest

/-- A name: not empty, not too long, of valid labels. -/
def validateName (name : List Char) : Except String Unit :=
  if name = [] then .error "name must not be empty"
  else if 253 < byteLength name then
    .error (nameError tables name " is longer than 253 characters")
  else validateLabels tables name (name.splitOn '.')

/-- `ValidateName` finds no error. -/
def ValidName (name : List Char) : Prop := validateName tables name = .ok ()

instance ValidName.decidable (name : List Char) : Decidable (ValidName tables name) :=
  inferInstanceAs (Decidable (_ = _))

/-! ### The RP ID -/

/-- The host that needs no dot. -/
def localhost : List Char := "localhost".toList

/-- The suffix of the names of the local network. -/
def dotLocal : List Char := ".local".toList

/-- The relying party of a host: a bare name is one of the local network. -/
def rpIDForHost (host : List Char) : List Char :=
  let host := canonicalHost tables host
  if '.' ∈ host ∨ host = localhost then host else host ++ dotLocal

/-! ### A valid name is its own folded form -/

variable {tables}

theorem validateLabel_ok {name label : List Char}
    (valid : validateLabel tables name label = .ok ()) :
    label ≠ [] ∧ ∀ letter ∈ label, isNameRune letter = true := by
  unfold validateLabel at valid
  split at valid
  · cases valid
  · rename_i nonempty
    split at valid
    · cases valid
    · split at valid
      · cases valid
      · split at valid
        · cases valid
        · rename_i _ _ _ none
          refine ⟨nonempty, fun letter member => ?_⟩
          have right := List.find?_eq_none.mp none letter member
          simpa using right

theorem validateLabels_ok {name : List Char} {labels : List (List Char)}
    (valid : validateLabels tables name labels = .ok ()) :
    ∀ label ∈ labels, label ≠ [] ∧ ∀ letter ∈ label, isNameRune letter = true := by
  induction labels with
  | nil => exact nofun
  | cons first rest inductionHypothesis =>
    rw [validateLabels] at valid
    split at valid
    · cases valid
    · rename_i here
      intro label member
      rcases List.mem_cons.mp member with rfl | later
      · exact validateLabel_ok here
      · exact inductionHypothesis valid label later

theorem ValidName.checkedLabels {name : List Char} (valid : ValidName tables name) :
    validateLabels tables name (name.splitOn '.') = .ok () := by
  unfold ValidName validateName at valid
  split at valid
  · cases valid
  · split at valid
    · cases valid
    · exact valid

/-- The labels of a valid name. -/
theorem ValidName.labels {name : List Char} (valid : ValidName tables name) :
    ∀ label ∈ name.splitOn '.', label ≠ [] ∧ ∀ letter ∈ label, isNameRune letter = true :=
  validateLabels_ok valid.checkedLabels

theorem mem_intercalate_dot {letter : Char} {labels : List (List Char)}
    (member : letter ∈ ['.'].intercalate labels) :
    letter = '.' ∨ ∃ label ∈ labels, letter ∈ label := by
  induction labels with
  | nil => simp at member
  | cons label rest inductionHypothesis =>
    cases rest with
    | nil => exact .inr ⟨label, List.mem_cons_self, by simpa using member⟩
    | cons next rest =>
      rw [List.intercalate_cons_cons, List.append_assoc, List.mem_append,
        List.singleton_append, List.mem_cons] at member
      rcases member with here | dot | later
      · exact .inr ⟨label, List.mem_cons_self, here⟩
      · exact .inl dot
      · rcases inductionHypothesis later with dot | ⟨other, listed, inside⟩
        · exact .inl dot
        · exact .inr ⟨other, List.mem_cons_of_mem _ listed, inside⟩

theorem ValidName.runes {name : List Char} (valid : ValidName tables name) :
    ∀ letter ∈ name, letter = '.' ∨ isNameRune letter = true := by
  intro letter member
  have joined : ['.'].intercalate (name.splitOn '.') = name := List.intercalate_splitOn '.'
  rw [← joined] at member
  rcases mem_intercalate_dot member with dot | ⟨label, listed, inside⟩
  · exact .inl dot
  · exact .inr ((valid.labels label listed).2 letter inside)

theorem ValidName.getLast_ne_dot {name : List Char} (valid : ValidName tables name) :
    name.getLast? ≠ some '.' := by
  intro last
  obtain ⟨start, rfl⟩ := List.getLast?_eq_some_iff.mp last
  have empty : [] ∈ (start ++ ['.']).splitOn '.' := by
    rw [List.splitOn_append_cons_self]
    exact List.mem_append_right _ (List.mem_singleton.mpr rfl)
  exact (valid.labels [] empty).1 rfl

/-- The character of a valid name: an ASCII character that is neither white space nor upper
case. -/
theorem toNat_nameRune {letter : Char} (right : letter = '.' ∨ isNameRune letter = true) :
    97 ≤ letter.toNat ∧ letter.toNat ≤ 122 ∨ 45 ≤ letter.toNat ∧ letter.toNat ≤ 57 ∨
      letter.toNat = 95 := by
  rcases right with rfl | right
  · decide
  · rcases of_decide_eq_true right with ⟨low, high⟩ | ⟨low, high⟩ | rfl | rfl
    · exact .inl ⟨low, high⟩
    · exact .inr (.inl ⟨Nat.le_trans (by decide) low, high⟩)
    · decide
    · decide

theorem isSpace_eq_false {letter : Char} (right : letter = '.' ∨ isNameRune letter = true) :
    isSpace letter = false := by
  have code := toNat_nameRune right
  simp only [isSpace, List.mem_cons, List.not_mem_nil, or_false, decide_eq_false_iff_not]
  omega

theorem lowerRune_eq_self {letter : Char} (right : letter = '.' ∨ isNameRune letter = true) :
    lowerRune tables letter = letter := by
  have code := toNat_nameRune right
  rw [lowerRune, if_pos (by omega)]
  refine dif_neg fun upper => ?_
  have low : 65 ≤ letter.toNat := upper.1
  have high : letter.toNat ≤ 90 := upper.2
  omega

theorem ValidName.trimSpace_eq {name : List Char} (valid : ValidName tables name) :
    trimSpace name = name := by
  have none : ∀ letter ∈ name, isSpace letter = false := fun letter member =>
    isSpace_eq_false (valid.runes letter member)
  have front : name.dropWhile isSpace = name := by
    refine List.dropWhile_eq_self_iff.mpr fun nonempty => ?_
    rw [none _ (List.getElem_mem nonempty)]
    exact Bool.false_ne_true
  rw [trimSpace, front]
  refine List.rdropWhile_eq_self_iff.mpr fun nonempty => ?_
  rw [none _ (List.getLast_mem nonempty)]
  exact Bool.false_ne_true

theorem ValidName.toLower_eq {name : List Char} (valid : ValidName tables name) :
    toLower tables name = name := by
  refine (List.map_congr_left fun letter member => ?_).trans (List.map_id name)
  exact lowerRune_eq_self (valid.runes letter member)

/-- Folding leaves a valid name as it is. -/
theorem ValidName.canonicalHost_eq {name : List Char} (valid : ValidName tables name) :
    canonicalHost tables name = name := by
  rw [canonicalHost, valid.trimSpace_eq, valid.toLower_eq, trimDot,
    if_neg valid.getLast_ne_dot]

/-- The RP ID of a name is the RP ID of its folded form when that is a valid name. -/
theorem rpIDForHost_canonicalHost {host : List Char}
    (valid : ValidName tables (canonicalHost tables host)) :
    rpIDForHost tables (canonicalHost tables host) = rpIDForHost tables host := by
  rw [rpIDForHost, valid.canonicalHost_eq]
  rfl

end Names

end Multimux
