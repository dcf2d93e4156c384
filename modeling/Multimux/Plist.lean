/-
This file follows the environment of a property list from the entries that it
is rendered from to the entries that are read back. The document falls into
parts, and what the walk makes of one part depends on the parts before it only
through where it stands. Every entry comes back with the text that XML can hold
of its value, so the environment comes back as it was exactly if XML can hold
all of it.
-/

import Multimux.ServiceUnit

namespace Multimux

deriving instance DecidableEq for PlistWalk

/-! ### Parts of a document -/

/-- The walk over a part of a document, and where the decoder stands behind it. -/
def walkPart (state : LexState) (walk : PlistWalk) (part : Bytes) :
    Except String (PlistWalk × LexState) :=
  (lex state part).map fun read => (read.1.foldl PlistWalk.step walk, read.2)

theorem walkPart_of_lex {state final : LexState} {part : Bytes} {tokens : List XmlToken}
    (read : lex state part = .ok (tokens, final)) (walk : PlistWalk) :
    walkPart state walk part = .ok (tokens.foldl PlistWalk.step walk, final) := by
  rw [walkPart, read]
  rfl

theorem walkPart_append {state middle final : LexState} {walk there last : PlistWalk}
    {part rest : Bytes} (first : walkPart state walk part = .ok (there, middle))
    (second : walkPart middle there rest = .ok (last, final)) :
    walkPart state walk (part ++ rest) = .ok (last, final) := by
  unfold walkPart at *
  cases read : lex state part with
  | error error =>
    rw [read] at first
    cases first
  | ok here =>
    obtain ⟨tokens, next⟩ := here
    rw [read] at first
    cases first
    cases later : lex next rest with
    | error error =>
      rw [later] at second
      cases second
    | ok others =>
      obtain ⟨more, ended⟩ := others
      rw [later] at second
      cases second
      rw [lex_append read later]
      simp only [Except.map, List.foldl_append]

/-- The text of a key or a string, up to the tag behind it. -/
theorem walkPart_element {walk : PlistWalk} (opened : List Bytes)
    (inside : walk.elem = bytes "key" ∨ walk.elem = bytes "string") (text : Bytes) :
    walkPart ⟨opened, .text [] 0 0⟩ walk (escapeText text ++ [0x3C]) =
      .ok ({ walk with text := walk.text ++ legibleText text }, ⟨opened, .markup⟩) := by
  rw [walkPart_of_lex (lex_element text opened)]
  unfold textTokens
  split_ifs with empty
  · rw [empty, List.append_nil]
    rfl
  · simp only [List.foldl_cons, List.foldl_nil, PlistWalk.step, if_pos inside]

/-! ### Behind the environment -/

/-- The part is read, and no dictionary begins in it. -/
def Passes (state : LexState) (part : Bytes) (final : LexState) : Prop :=
  ∃ tokens, lex state part = .ok (tokens, final) ∧ .startElement (bytes "dict") ∉ tokens

theorem Passes.append {state middle final : LexState} {part rest : Bytes}
    (first : Passes state part middle) (second : Passes middle rest final) :
    Passes state (part ++ rest) final := by
  obtain ⟨tokens, read, free⟩ := first
  obtain ⟨more, later, free'⟩ := second
  refine ⟨tokens ++ more, lex_append read later, ?_⟩
  rw [List.mem_append, not_or]
  exact ⟨free, free'⟩

theorem passes_element (opened : List Bytes) (text : Bytes) :
    Passes ⟨opened, .text [] 0 0⟩ (escapeText text ++ [0x3C]) ⟨opened, .markup⟩ := by
  refine ⟨_, lex_element text opened, ?_⟩
  unfold textTokens
  split_ifs <;> simp

/-- The check of a part that is known. -/
theorem passes_of_check {state final : LexState} {part : Bytes}
    (check : (lex state part).map (fun read =>
      (decide (.startElement (bytes "dict") ∉ read.1), read.2)) = .ok (true, final)) :
    Passes state part final := by
  cases read : lex state part with
  | error error =>
    rw [read] at check
    cases check
  | ok here =>
    obtain ⟨tokens, next⟩ := here
    rw [read] at check
    simp only [Except.map, Except.ok.injEq, Prod.mk.injEq, decide_eq_true_eq] at check
    obtain ⟨free, rfl⟩ := check
    exact ⟨tokens, read, free⟩

/-- Outside of the environment nothing is taken, and only a dictionary leads into it. -/
theorem PlistWalk.step_outside {walk : PlistWalk} (outside : walk.envDepth = 0)
    {token : XmlToken} (other : token ≠ .startElement (bytes "dict")) :
    (walk.step token).envDepth = 0 ∧ (walk.step token).out = walk.out := by
  have notIn : walk.inEnv = false := by simp [PlistWalk.inEnv, outside]
  cases token with
  | startElement name =>
    have name : name ≠ bytes "dict" := fun same => other (by rw [same])
    simp only [PlistWalk.step, if_neg name]
    exact ⟨outside, trivial⟩
  | charData data =>
    simp only [PlistWalk.step]
    split_ifs <;> exact ⟨outside, rfl⟩
  | endElement name =>
    simp only [PlistWalk.step, notIn, Bool.false_eq_true, if_false, false_and, and_false]
    split_ifs <;> simp [outside]

theorem PlistWalk.foldl_outside {walk : PlistWalk} (outside : walk.envDepth = 0)
    {tokens : List XmlToken} (free : .startElement (bytes "dict") ∉ tokens) :
    (tokens.foldl PlistWalk.step walk).envDepth = 0 ∧
      (tokens.foldl PlistWalk.step walk).out = walk.out := by
  induction tokens generalizing walk with
  | nil => exact ⟨outside, rfl⟩
  | cons token rest inductionHypothesis =>
    rw [List.mem_cons, not_or] at free
    obtain ⟨still, same⟩ := walk.step_outside outside (Ne.symm free.1)
    obtain ⟨ended, kept⟩ := inductionHypothesis still free.2
    exact ⟨ended, kept.trans same⟩

theorem Passes.walkPart {state final : LexState} {part : Bytes} (passes : Passes state part final)
    {walk : PlistWalk} (outside : walk.envDepth = 0) :
    ∃ last, walkPart state walk part = .ok (last, final) ∧ last.envDepth = 0 ∧
      last.out = walk.out := by
  obtain ⟨tokens, read, free⟩ := passes
  exact ⟨_, walkPart_of_lex read walk, PlistWalk.foldl_outside outside free⟩

/-! ### The environment -/

/-- The entry as it is read back. -/
def EnvVar.legible (entry : EnvVar) : EnvVar := { entry with value := legibleText entry.value }

/-- The elements around the entries. -/
def envElements : List Bytes := ["dict", "dict", "plist"].map bytes

/-- The decoder stands at the beginning of a line. -/
def lineStart (opened : List Bytes) : LexState := ⟨opened, .text [newline] 0 newline⟩

/-- The walk stands between two entries. -/
def envWalk (out : List EnvVar) (elem curKey : Bytes) : PlistWalk :=
  ⟨out, 2, 2, false, elem, [], curKey, false⟩

theorem legibleText_key {entry : EnvVar} (valid : validateEnv entry = .ok ()) :
    legibleText entry.key = entry.key := by
  obtain ⟨-, names, -⟩ := validateEnv_ok valid
  refine legibleText_ascii fun byte member => ?_
  have name := names byte member
  simp only [nameByte, between, UInt8.le_iff_toNat_le, UInt8.reduceToNat, decide_eq_true_eq,
    ← UInt8.toNat_inj] at name
  rw [UInt8.le_iff_toNat_le, UInt8.lt_iff_toNat_lt]
  simp only [UInt8.reduceToNat]
  omega

/-- An entry is read back where it stands. -/
theorem walkPart_renderVar {entry : EnvVar} (valid : validateEnv entry = .ok ())
    (out : List EnvVar) (elem curKey : Bytes) :
    walkPart (lineStart envElements) (envWalk out elem curKey) (renderVar .darwin entry) =
      .ok (envWalk (out ++ [entry.legible]) [] entry.key, lineStart envElements) := by
  have opening : lex (lineStart envElements) (bytes "\t\t<key>") =
      .ok ([.charData (bytes "\n\t\t"), .startElement (bytes "key")],
        ⟨bytes "key" :: envElements, .text [] 0 0⟩) := by decide
  have between' : lex ⟨bytes "key" :: envElements, .markup⟩ (bytes "/key><string>") =
      .ok ([.endElement (bytes "key"), .startElement (bytes "string")],
        ⟨bytes "string" :: envElements, .text [] 0 0⟩) := by decide
  have closing : lex ⟨bytes "string" :: envElements, .markup⟩ (bytes "/string>\n") =
      .ok ([.endElement (bytes "string")], lineStart envElements) := by decide
  have shape : renderVar .darwin entry = bytes "\t\t<key>" ++ ((escapeText entry.key ++ [0x3C]) ++
      (bytes "/key><string>" ++ ((escapeText entry.value ++ [0x3C]) ++ bytes "/string>\n"))) := by
    simp only [renderVar, List.append_assoc]
    rfl
  have keyed : [.charData (bytes "\n\t\t"), .startElement (bytes "key")].foldl PlistWalk.step
      (envWalk out elem curKey) = envWalk out (bytes "key") curKey := by
    have other : bytes "key" ≠ bytes "dict" := by decide
    simp only [List.foldl_cons, List.foldl_nil, PlistWalk.step, envWalk, if_neg other]
    split_ifs <;> rfl
  have valued : ∀ key : Bytes, [.endElement (bytes "key"), .startElement (bytes "string")].foldl
      PlistWalk.step { envWalk out (bytes "key") curKey with text := key } =
        { envWalk out (bytes "string") key with wantValue := true } := fun _ => rfl
  have taken : ∀ value : Bytes, [.endElement (bytes "string")].foldl PlistWalk.step
      { envWalk out (bytes "string") entry.key with wantValue := true, text := value } =
        envWalk (out ++ [⟨entry.key, value⟩]) [] entry.key := fun _ => rfl
  rw [shape]
  refine walkPart_append (walkPart_of_lex opening _) ?_
  rw [keyed]
  refine walkPart_append (walkPart_element _ (.inl rfl) _) ?_
  refine walkPart_append (walkPart_of_lex between' _) ?_
  rw [show (envWalk out (bytes "key") curKey).text = [] from rfl, List.nil_append,
    legibleText_key valid, valued]
  refine walkPart_append (walkPart_element _ (.inr rfl) _) ?_
  rw [walkPart_of_lex closing]
  exact congrArg _ (congrArg (·, _) (taken _))

/-- The entries are read back one after the other. -/
theorem walkPart_entries {env : List EnvVar} (valid : ∀ entry ∈ env, validateEnv entry = .ok ())
    (out : List EnvVar) (elem curKey : Bytes) :
    ∃ elem' curKey', walkPart (lineStart envElements) (envWalk out elem curKey)
        (env.flatMap (renderVar .darwin)) =
      .ok (envWalk (out ++ env.map EnvVar.legible) elem' curKey', lineStart envElements) := by
  induction env generalizing out elem curKey with
  | nil => exact ⟨elem, curKey, by rw [List.map_nil, List.append_nil]; rfl⟩
  | cons entry rest inductionHypothesis =>
    have here := walkPart_renderVar (valid entry List.mem_cons_self) out elem curKey
    obtain ⟨elem', curKey', later⟩ := inductionHypothesis
      (fun other member => valid other (List.mem_cons_of_mem _ member)) (out ++ [entry.legible]) []
      entry.key
    refine ⟨elem', curKey', ?_⟩
    rw [List.append_assoc, List.singleton_append] at later
    rw [List.flatMap_cons, List.map_cons]
    exact walkPart_append here later

/-! ### The document -/

/-- The walk in the text of an element outside of the environment. -/
def stringWalk (text : Bytes) : PlistWalk := ⟨[], 1, 0, false, bytes "string", text, [], false⟩

/-- What stands before the entries. -/
theorem walkPart_head (execPath : Bytes) :
    walkPart ⟨[], .text [] 0 0⟩ .start (plistHead ++ escapeText execPath ++ plistArguments) =
      .ok (envWalk [] (bytes "dict") [], lineStart envElements) := by
  have head : walkPart ⟨[], .text [] 0 0⟩ .start plistHead =
      .ok (stringWalk [], ⟨["string", "array", "dict", "plist"].map bytes, .text [] 0 0⟩) := by
    decide +kernel
  have closing : lex ⟨["string", "array", "dict", "plist"].map bytes, .markup⟩ (bytes "/string>") =
      .ok ([.endElement (bytes "string")],
        ⟨["array", "dict", "plist"].map bytes, .text [] 0 0⟩) := by decide
  have ended : ∀ text : Bytes, [.endElement (bytes "string")].foldl PlistWalk.step
      (stringWalk text) = { stringWalk [] with elem := [] } := fun _ => rfl
  have rest : walkPart ⟨["array", "dict", "plist"].map bytes, .text [] 0 0⟩
      { stringWalk [] with elem := [] } (plistArguments.drop 9) =
        .ok (envWalk [] (bytes "dict") [], lineStart envElements) := by decide
  have shape : plistHead ++ escapeText execPath ++ plistArguments = plistHead ++
      ((escapeText execPath ++ [0x3C]) ++ (bytes "/string>" ++ plistArguments.drop 9)) := by
    have split : plistArguments = [0x3C] ++ (bytes "/string>" ++ plistArguments.drop 9) := by
      decide
    rw [List.append_assoc, List.append_assoc, ← split]
  rw [shape]
  refine walkPart_append head ?_
  refine walkPart_append (walkPart_element _ (.inr rfl) _) ?_
  refine walkPart_append (walkPart_of_lex closing _) ?_
  exact (congrArg (walkPart _ · _) (ended _)).trans rest

/-- What stands behind the entries takes nothing from them. -/
theorem walkPart_tail (logPath : Bytes) (out : List EnvVar) (elem curKey : Bytes) :
    ∃ last, walkPart (lineStart envElements) (envWalk out elem curKey)
        (plistOut ++ escapeText logPath ++ plistErr ++ escapeText logPath ++ plistTail) =
      .ok (last, lineStart []) ∧ last.out = out := by
  have closing : lex (lineStart envElements) (bytes "\t</dict>") =
      .ok ([.charData (bytes "\n\t"), .endElement (bytes "dict")],
        ⟨["dict", "plist"].map bytes, .text [] 0 0⟩) := by decide
  have ended : ([.charData (bytes "\n\t"), .endElement (bytes "dict")].foldl PlistWalk.step
      (envWalk out elem curKey)).envDepth = 0 ∧ ([.charData (bytes "\n\t"),
      .endElement (bytes "dict")].foldl PlistWalk.step (envWalk out elem curKey)).out = out := by
    simp only [List.foldl_cons, List.foldl_nil, PlistWalk.step, envWalk]
    split_ifs <;> simp_all
  have toText : Passes ⟨["dict", "plist"].map bytes, .text [] 0 0⟩ (plistOut.drop 8)
      ⟨["string", "dict", "plist"].map bytes, .text [] 0 0⟩ :=
    passes_of_check (by decide)
  have toNext : Passes ⟨["string", "dict", "plist"].map bytes, .markup⟩ (plistErr.drop 1)
      ⟨["string", "dict", "plist"].map bytes, .text [] 0 0⟩ :=
    passes_of_check (by decide)
  have toEnd : Passes ⟨["string", "dict", "plist"].map bytes, .markup⟩ (plistTail.drop 1)
      (lineStart []) := passes_of_check (by decide)
  have shape : plistOut ++ escapeText logPath ++ plistErr ++ escapeText logPath ++ plistTail =
      bytes "\t</dict>" ++ (plistOut.drop 8 ++ ((escapeText logPath ++ [0x3C]) ++
        (plistErr.drop 1 ++ ((escapeText logPath ++ [0x3C]) ++ plistTail.drop 1)))) := by
    have split : plistOut = bytes "\t</dict>" ++ plistOut.drop 8 := by decide
    have splitErr : plistErr = [0x3C] ++ plistErr.drop 1 := by decide
    have splitTail : plistTail = [0x3C] ++ plistTail.drop 1 := by decide
    simp only [List.append_assoc]
    rw [← List.append_assoc [0x3C] (plistErr.drop 1), ← splitErr, ← splitTail,
      ← List.append_assoc (bytes _), ← split]
  obtain ⟨last, read, -, same⟩ := (toText.append ((passes_element _ logPath).append
    (toNext.append ((passes_element _ logPath).append toEnd)))).walkPart ended.1
  refine ⟨last, ?_, same.trans ended.2⟩
  rw [shape]
  exact walkPart_append (walkPart_of_lex closing _) read

/-- A document is read to its end. -/
theorem parsePlistEnv_of_walkPart {content : Bytes} {walk : PlistWalk}
    (read : walkPart ⟨[], .text [] 0 0⟩ .start content = .ok (walk, lineStart [])) :
    parsePlistEnv content = .ok walk.out := by
  have last : flush [newline] = .ok [.charData [newline]] := by decide
  unfold walkPart at read
  cases taken : lex ⟨[], .text [] 0 0⟩ content with
  | error error =>
    rw [taken] at read
    cases read
  | ok here =>
    obtain ⟨tokens, state⟩ := here
    rw [taken] at read
    simp only [Except.map, Except.ok.injEq, Prod.mk.injEq] at read
    obtain ⟨rfl, rfl⟩ := read
    simp only [parsePlistEnv, xmlTokens, taken, lineStart, last, Except.map, List.foldl_append,
      List.foldl_cons, List.foldl_nil, PlistWalk.step]
    split_ifs <;> rfl

/-- A property list is read back as the entries that it was rendered from, as XML holds them. -/
theorem parsePlistEnv_template (execPath logPath : Bytes) {env : List EnvVar}
    (valid : ∀ entry ∈ env, validateEnv entry = .ok ()) :
    parsePlistEnv (plistTemplate (escapeText execPath) (env.flatMap (renderVar .darwin))
      (escapeText logPath)) = .ok (env.map EnvVar.legible) := by
  obtain ⟨elem, curKey, entries⟩ := walkPart_entries valid [] (bytes "dict") []
  rw [List.nil_append] at entries
  obtain ⟨last, tail, same⟩ := walkPart_tail logPath (env.map EnvVar.legible) elem curKey
  have whole := walkPart_append (walkPart_head execPath) (walkPart_append entries tail)
  have shape : plistTemplate (escapeText execPath) (env.flatMap (renderVar .darwin))
      (escapeText logPath) = plistHead ++ escapeText execPath ++ plistArguments ++
        (env.flatMap (renderVar .darwin) ++ (plistOut ++ escapeText logPath ++ plistErr ++
          escapeText logPath ++ plistTail)) := by
    simp only [plistTemplate, List.append_assoc]
  rw [shape, parsePlistEnv_of_walkPart whole, same]

/-! ### The unit -/

/-- What is rendered for darwin: a property list of accepted entries. -/
theorem unitContent_darwin {home path content : Bytes} {options : UnitOptions}
    (rendered : unitContent .darwin home options = .ok (path, content)) :
    (∀ entry ∈ options.entries, validateEnv entry = .ok ()) ∧
      ∃ logPath, content = plistTemplate (escapeText options.execPath)
        (options.entries.flatMap (renderVar .darwin)) (escapeText logPath) := by
  unfold unitContent at rendered
  split at rendered
  · cases rendered
  · split at rendered
    · cases rendered
    · rename_i block accepted
      cases rendered
      obtain ⟨valid, rfl⟩ := renderEnv_eq_ok.mp accepted
      exact ⟨valid, _, rfl⟩

/-- Accepted entries are rendered wherever there is a home directory. -/
theorem exists_unitContent_darwin {home : Bytes} (nonempty : home ≠ []) {options : UnitOptions}
    (valid : ∀ entry ∈ options.entries, validateEnv entry = .ok ()) :
    ∃ path content, unitContent .darwin home options = .ok (path, content) := by
  have there : unitPath .darwin home =
      .ok (joinBytes home ["Library", "LaunchAgents", "com.jontuk.multimux.plist"]) :=
    if_neg nonempty
  have accepted : renderEnv .darwin options.entries = .ok _ := renderEnv_eq_ok.mpr ⟨valid, rfl⟩
  simp only [unitContent, there, accepted, Except.ok.injEq, Prod.mk.injEq, exists_and_left,
    exists_eq', and_true]

/-- The property list is read back as the entries that it was rendered from exactly if XML can
hold the values of all of them. -/
theorem plist_returns_iff {home path content : Bytes} {options : UnitOptions}
    (rendered : unitContent .darwin home options = .ok (path, content)) :
    parsePlistEnv content = .ok options.entries ↔
      ∀ entry ∈ options.entries, (pieces entry.value).all xmlCharacter = true := by
  obtain ⟨valid, logPath, rfl⟩ := unitContent_darwin rendered
  rw [parsePlistEnv_template _ _ valid, Except.ok.injEq]
  constructor
  · intro same entry member
    have each := List.map_inj_left.mp (same.trans (List.map_id _).symm) entry member
    exact legibleText_eq_self_iff.mp (congrArg EnvVar.value each)
  · intro characters
    refine (List.map_congr_left fun entry member => ?_).trans (List.map_id _)
    rw [EnvVar.legible, legibleText_eq_self_iff.mpr (characters entry member)]
    rfl

/-- A data directory with markup in its name. -/
def markupOptions : UnitOptions where
  execPath := bytes "/usr/local/bin/multimux"
  logPath := []
  pathEnv := bytes "/usr/bin"
  env := [⟨bytes "MULTIMUX_DATA_DIR", bytes "/srv/<a> & \"b\""⟩]

theorem markup_returns : ∃ path content,
    unitContent .darwin (bytes "/Users/me") markupOptions = .ok (path, content) ∧
      parsePlistEnv content = .ok [⟨bytes "PATH", bytes "/usr/bin"⟩,
        ⟨bytes "MULTIMUX_DATA_DIR", bytes "/srv/<a> & \"b\""⟩] := by
  have home : bytes "/Users/me" ≠ [] := by decide
  have valid : ∀ entry ∈ markupOptions.entries, validateEnv entry = .ok () := by decide
  obtain ⟨path, content, rendered⟩ := exists_unitContent_darwin home valid
  exact ⟨path, content, rendered, (plist_returns_iff rendered).mpr (by decide)⟩

/-- A value with a byte that XML cannot hold comes back with another in its place. -/
theorem plist_replaces_illegible :
    ¬ ∀ (home path content : Bytes) (options : UnitOptions),
      unitContent .darwin home options = .ok (path, content) →
      parsePlistEnv content = .ok options.entries := by
  intro always
  obtain ⟨options, entries⟩ : ∃ options : UnitOptions, options.entries =
      [⟨bytes "PATH", bytes "/usr/bin"⟩, ⟨bytes "MULTIMUX_HOSTNAME", [0x01]⟩] :=
    ⟨⟨[], [], bytes "/usr/bin", [⟨bytes "MULTIMUX_HOSTNAME", [0x01]⟩]⟩, rfl⟩
  have valid : ∀ entry ∈ options.entries, validateEnv entry = .ok () := by
    rw [entries]
    decide
  have home : bytes "/Users/me" ≠ [] := by decide
  obtain ⟨path, content, rendered⟩ := exists_unitContent_darwin home valid
  have returns := always _ _ _ _ rendered
  obtain ⟨-, logPath, rfl⟩ := unitContent_darwin rendered
  rw [parsePlistEnv_template _ _ valid, entries] at returns
  exact absurd returns (by decide)

end Multimux
