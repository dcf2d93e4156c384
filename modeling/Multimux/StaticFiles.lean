/-
This file models how the web assets get from the build to a browser: the build
step that writes compressed variants beside the files, the index that the
daemon makes of what was embedded, and the handler that picks a variant by what
the client accepts. Whatever is asked for, what is sent decodes to the file
the build emitted under the name that the response is about.
-/

import Multimux.Bytes

namespace Multimux

/-! ### Files and their variants -/

/-- A directory of files by their slash-separated paths. -/
structure WebFiles where
  files : List (Bytes × Bytes)

namespace WebFiles

/-- The content of a file. -/
def read (web : WebFiles) (path : Bytes) : Option Bytes :=
  (web.files.find? (·.1 = path)).map Prod.snd

/-- The tree with a file written. -/
def write (web : WebFiles) (path content : Bytes) : WebFiles :=
  if web.files.any (·.1 = path) then
    ⟨web.files.map fun file => if file.1 = path then (path, content) else file⟩
  else ⟨web.files ++ [(path, content)]⟩

end WebFiles

/-- A way to compress: its name, the suffix of its siblings, and what it makes of a content. -/
structure StaticEncoding where
  name : Bytes
  suffix : Bytes
  compress : Bytes → Bytes

/-- The full stop. -/
def dotByte : UInt8 := 0x2E

/-- The slash. -/
def slashByte : UInt8 := 0x2F

/-- The comma. -/
def commaByte : UInt8 := 0x2C

/-- The semicolon. -/
def semicolonByte : UInt8 := 0x3B

/-- `extname` of the last name of a path; a dot in front is part of the name. -/
def extname (path : Bytes) : Bytes :=
  let name := (path.splitOn slashByte).getLast?.getD []
  if dotByte ∈ name.tail then dotByte :: (name.splitOn dotByte).getLast?.getD [] else []

/-- `COMPRESSIBLE`. -/
def compressible : List Bytes :=
  [".css", ".html", ".js", ".json", ".map", ".svg", ".txt"].map bytes

section Assets

variable (brotli gzip : Bytes → Bytes) (sha256 : Bytes → Bytes)

/-- `staticEncodings`, and the variants that `precompressDir` writes. -/
def staticEncodings : List StaticEncoding :=
  [⟨bytes "br", bytes ".br", brotli⟩, ⟨bytes "gzip", bytes ".gz", gzip⟩]

/-- The file is of a type that is worth compressing. -/
def isCompressible (path : Bytes) : Bool := compressible.any (· = extname path)

/-- The variants of one file. -/
def precompressFile (web : WebFiles) (path : Bytes) : WebFiles :=
  match web.read path with
  | none => web
  | some content => (staticEncodings brotli gzip).foldl (fun web encoding =>
      if (encoding.compress content).length < content.length then
        web.write (path ++ encoding.suffix) (encoding.compress content)
      else web) web

/-- The tree with the compressed variants of its files beside them. -/
def precompressDir (dist : WebFiles) : WebFiles :=
  ((dist.files.map Prod.fst).filter isCompressible).foldl
    (precompressFile brotli gzip) dist

/-! ### What a client accepts -/

/-- ASCII letters in lower case; no other letter folds to one that is looked for here. -/
def lowerBytes (text : Bytes) : Bytes :=
  text.map fun byte => if 0x41 ≤ byte ∧ byte ≤ 0x5A then byte + 0x20 else byte

/-- The sign in front, if there is one, and whether it is a minus. -/
def dropSign (text : Bytes) : Bool × Bytes :=
  match text with
  | 0x2B :: rest => (false, rest)
  | 0x2D :: rest => (true, rest)
  | _ => (false, text)

/-- The value of a digit, in lower case if it is a hexadecimal one. -/
def digitValue (base : Nat) (byte : UInt8) : Option Nat :=
  if 0x30 ≤ byte ∧ byte ≤ 0x39 then some (byte.toNat - 0x30)
  else if base = 16 ∧ 0x61 ≤ byte ∧ byte ≤ 0x66 then some (byte.toNat - 0x57)
  else none

/-- The whole text is digits, of which there is one at least. -/
def isNumeral (base : Nat) (text : Bytes) : Bool :=
  text ≠ [] && text.all fun byte => (digitValue base byte).isSome

/-- The value of the digits. -/
def digitsValue (base : Nat) (text : Bytes) : Nat :=
  text.foldl (fun value byte => value * base + (digitValue base byte).getD 0) 0

/-- The exponent as `readFloat` takes it: from five digits on the rest is passed over. -/
def exponentValue (text : Bytes) : Nat :=
  text.foldl (fun value byte =>
    if value < 10000 then value * 10 + (digitValue 10 byte).getD 0 else value) 0

/-- The underscore. -/
def underscoreByte : UInt8 := 0x5F

/-- The loop of `underscoreOK`: each underscore comes after a digit and before one. -/
def underscoresSpaced (base : Nat) : (afterDigit afterUnderscore : Bool) → Bytes → Bool
  | _, afterUnderscore, [] => !afterUnderscore
  | afterDigit, afterUnderscore, byte :: rest =>
    if (digitValue base byte).isSome then underscoresSpaced base true false rest
    else if byte = underscoreByte then afterDigit && underscoresSpaced base false true rest
    else !afterUnderscore && underscoresSpaced base false false rest

/-- `underscoreOK` of a text in lower case; a base prefix counts as a digit. -/
def underscoreOK (text : Bytes) : Bool :=
  match (dropSign text).2 with
  | 0x30 :: 0x78 :: rest => underscoresSpaced 16 true false rest
  | 0x30 :: 0x62 :: rest | 0x30 :: 0x6F :: rest => underscoresSpaced 10 true false rest
  | unsigned => underscoresSpaced 10 false false unsigned

/-- `strconv.ParseFloat` of a text in lower case succeeds and its result is zero: the text is a
decimal, or a hexadecimal with its binary exponent, and the number is at most half of the least
one that is not rounded to zero, which is 2 to the power of -1074. -/
def parsesToZero (text : Bytes) : Bool :=
  let plain := text.filter (· ≠ underscoreByte)
  let unsigned := (dropSign plain).2
  let (base, radix, body) :=
    match unsigned with
    | 0x30 :: 0x78 :: digit :: rest => (16, 2, digit :: rest)
    | _ => (10, 10, unsigned)
  -- a decimal may do without its exponent
  let (mantissa, exponent) :=
    if base = 16 then (cut body 0x70).getD (body, []) else (cut body 0x65).getD (body, [0x30])
  let (whole, fraction) := (cut mantissa dotByte).getD (mantissa, [])
  let (negative, power) := dropSign exponent
  let value := digitsValue base (whole ++ fraction)
  let scale := Nat.pow radix (exponentValue power)
  (plain = text || underscoreOK text) && isNumeral base (whole ++ fraction) && isNumeral 10 power &&
    (value = 0 || value * Nat.pow 2 1075 * (if negative then 1 else scale) ≤
      Nat.pow base fraction.length * (if negative then scale else 1))

example : (["0", "-0.000", ".0e+5", "0x0p0", "0x.0p-1", "0_0.0_0", "0x_0p0"].map fun text =>
    parsesToZero (bytes text)) = List.replicate 7 true := by decide

example : (["", "0x0", "0x", "0__0", "_0", "0e", "0_x0p0", "0b0", "nan"].map fun text =>
    parsesToZero (bytes text)) = List.replicate 9 false := by decide

/-- The parameters of an encoding give it the quality zero. -/
def refusedByQuality (params : Bytes) : Bool :=
  match cutPrefix (lowerBytes (trimSpaces params)) (bytes "q=") with
  | none => false
  | some value => parsesToZero (trimSpaces value)

/-- The parts of the header, in order; the wildcard decides if none of them names the
encoding. -/
def acceptsAmong (encoding : Bytes) : Bool → List Bytes → Bool
  | wildcard, [] => wildcard
  | wildcard, part :: rest =>
    let (name, params) := (cut part semicolonByte).getD (part, [])
    let name := trimSpaces name
    if lowerBytes name = lowerBytes encoding then !refusedByQuality params
    else
      acceptsAmong encoding (if name = bytes "*" then !refusedByQuality params else wildcard) rest

/-- The header accepts the encoding; an entry for it goes before the wildcard. -/
def acceptsEncoding (header encoding : Bytes) : Bool :=
  acceptsAmong encoding false (header.splitOn commaByte)

example : acceptsEncoding (bytes "*, gzip; Q=0x0p0") (bytes "gzip") = false := by decide

/-! ### The daemon -/

/-- A variant of a file: where it is, how it is encoded, and its tag. -/
structure StaticVariant where
  path : Bytes
  encoding : Bytes
  etag : Bytes

/-- A file with its compressed variants, the best one first. -/
structure StaticFile where
  plain : StaticVariant
  compressed : List StaticVariant

/-- The digits of base sixteen. -/
def hexDigits : Bytes := bytes "0123456789abcdef"

/-- `hex.EncodeToString`. -/
def hexText (content : Bytes) : Bytes :=
  content.flatMap fun byte =>
    [hexDigits.getD (byte.toNat / 16) 0, hexDigits.getD (byte.toNat % 16) 0]

/-- The tag of a content: the first eight bytes of its hash, in quotes. -/
def etagOf (content : Bytes) : Bytes := 0x22 :: hexText ((sha256 content).take 8) ++ [0x22]

/-- The variant for a request: the first one that its header accepts. -/
def StaticFile.negotiate (file : StaticFile) (acceptEncoding : Bytes) : StaticVariant :=
  (file.compressed.find? fun variant => acceptsEncoding acceptEncoding variant.encoding).getD
    file.plain

/-- The file is a variant of another one. -/
def isSibling (web : WebFiles) (path : Bytes) : Bool :=
  (staticEncodings brotli gzip).any fun encoding =>
    encoding.suffix.isSuffixOf path &&
      (web.read (path.take (path.length - encoding.suffix.length))).isSome

/-- `loadStaticFiles`, as what it holds under a path. -/
def loadStaticFiles (web : WebFiles) (path : Bytes) : Option StaticFile :=
  match web.read path with
  | none => none
  | some content =>
    if isSibling brotli gzip web path then none
    else some {
      plain := ⟨path, [], etagOf sha256 content⟩
      compressed := (staticEncodings brotli gzip).filterMap fun encoding =>
        (web.read (path ++ encoding.suffix)).map fun sibling =>
          ⟨path ++ encoding.suffix, encoding.name, etagOf sha256 sibling⟩ }

/-- What is sent; `name` is what the content type is made from. -/
structure StaticResponse where
  name : Bytes
  cacheControl : String
  etag : Bytes
  vary : Bool
  encoding : Option Bytes
  body : Bytes

/-- The caching of files whose name has a hash of the content. -/
def cacheImmutable : String := "public, max-age=31536000, immutable"

/-- The caching of all other files. -/
def cacheRevalidate : String := "no-cache"

/-- `staticHandler`: the response, or its status and text. -/
def staticHandler (web : WebFiles) (urlPath acceptEncoding : Bytes) :
    Except (Nat × String) StaticResponse :=
  let files := loadStaticFiles brotli gzip sha256 web
  let path := trimPrefixByte urlPath slashByte
  let found := (files path).isSome
  let cacheControl :=
    if found && (bytes "assets/").isPrefixOf path then cacheImmutable else cacheRevalidate
  let path := if found then path else bytes "index.html"
  match files path with
  | none => .error (501, "web assets missing — build web/ first")
  | some file =>
    let variant := file.negotiate acceptEncoding
    match web.read variant.path with
    | none => .error (500, "web asset unreadable")
    | some content => .ok {
        name := path
        cacheControl
        etag := variant.etag
        vary := file.compressed ≠ []
        encoding := if variant.encoding = [] then none else some variant.encoding
        body := content }

/-! ### The files after the build -/

namespace WebFiles

/-- The paths of the tree. -/
def paths (web : WebFiles) : List Bytes := web.files.map Prod.fst

theorem read_eq_none_iff {web : WebFiles} {path : Bytes} :
    web.read path = none ↔ path ∉ web.paths := by
  simp only [read, paths, Option.map_eq_none_iff, List.find?_eq_none, decide_eq_true_eq,
    List.mem_map, not_exists, not_and]

theorem read_replaced (files : List (Bytes × Bytes)) (path content other : Bytes) :
    ((files.map fun file => if file.1 = path then (path, content) else file).find?
        (·.1 = other)).map Prod.snd =
      if other = path then (files.find? (·.1 = path)).map fun _ => content
      else (files.find? (·.1 = other)).map Prod.snd := by
  induction files with
  | nil => simp
  | cons file files inductionHypothesis =>
    by_cases same : file.1 = path
    · by_cases asked : other = path
      · simp [same, asked]
      · rw [if_neg asked] at inductionHypothesis ⊢
        simp [same, Ne.symm asked, inductionHypothesis, -List.find?_map]
    · by_cases asked : other = path
      · rw [if_pos asked] at inductionHypothesis ⊢
        subst asked
        simp [same, inductionHypothesis, -List.find?_map]
      · rw [if_neg asked] at inductionHypothesis ⊢
        rw [List.map_cons, if_neg same]
        by_cases first : file.1 = other <;>
          simp [first, inductionHypothesis, -List.find?_map]

theorem read_write (web : WebFiles) (path content other : Bytes) :
    (web.write path content).read other =
      if other = path then some content else web.read other := by
  by_cases present : web.files.any (·.1 = path)
  · rw [write, if_pos present, read, read_replaced]
    obtain ⟨file, found⟩ : ∃ file, web.files.find? (·.1 = path) = some file :=
      Option.isSome_iff_exists.1 (List.find?_isSome.2 (List.any_eq_true.1 present))
    simp only [found, Option.map_some, read]
  · rw [write, if_neg present]
    have absent : web.files.find? (·.1 = path) = none :=
      List.find?_eq_none.2 fun file member same => present (List.any_eq_true.2 ⟨file, member, same⟩)
    by_cases asked : other = path
    · simp [read, List.find?_append, absent, asked]
    · simp [read, List.find?_append, asked, Ne.symm asked]

@[simp] theorem mem_paths_write {web : WebFiles} {path content other : Bytes} :
    other ∈ (web.write path content).paths ↔ other = path ∨ other ∈ web.paths := by
  rw [← not_iff_not, not_or, ← read_eq_none_iff, ← read_eq_none_iff, read_write]
  by_cases asked : other = path <;> simp [asked]

end WebFiles

/-- What the build writes as the variant of a file, if it writes one. -/
def variantOf (dist : WebFiles) (encoding : StaticEncoding) (path : Bytes) : Option Bytes :=
  if isCompressible path then
    (dist.read path).bind fun content =>
      if (encoding.compress content).length < content.length then
        some (encoding.compress content)
      else none
  else none

/-- The build's own files are no variants by name. -/
def PlainNames (dist : WebFiles) : Prop :=
  ∀ path ∈ dist.paths, ∀ encoding ∈ staticEncodings brotli gzip, ¬ encoding.suffix <:+ path

/-- The variants of the files in `done` are written, and nothing else changed. -/
structure Built (dist : WebFiles) (done : List Bytes) (web : WebFiles) : Prop where
  plain : ∀ path ∈ dist.paths, web.read path = dist.read path
  variants : ∀ path ∈ dist.paths, ∀ encoding ∈ staticEncodings brotli gzip,
    web.read (path ++ encoding.suffix) = if path ∈ done then variantOf dist encoding path else none
  named : ∀ path ∈ web.paths, path ∈ dist.paths ∨ ∃ base ∈ dist.paths,
    ∃ encoding ∈ staticEncodings brotli gzip, path = base ++ encoding.suffix

variable {brotli gzip}

theorem suffix_length {encoding : StaticEncoding}
    (member : encoding ∈ staticEncodings brotli gzip) :
    encoding.suffix.length = 3 := by
  simp only [staticEncodings, List.mem_cons, List.not_mem_nil, or_false] at member
  rcases member with rfl | rfl <;> rfl

/-- The name of a variant says what it is a variant of. -/
theorem append_suffix_inj {first second : StaticEncoding} {path other : Bytes}
    (left : first ∈ staticEncodings brotli gzip) (right : second ∈ staticEncodings brotli gzip)
    (same : path ++ first.suffix = other ++ second.suffix) : path = other ∧ first = second := by
  obtain ⟨paths, suffixes⟩ :=
    List.append_inj' same (by rw [suffix_length left, suffix_length right])
  refine ⟨paths, ?_⟩
  have different : bytes ".br" ≠ bytes ".gz" := by decide
  simp only [staticEncodings, List.mem_cons, List.not_mem_nil, or_false] at left right
  rcases left with rfl | rfl <;> rcases right with rfl | rfl
  · rfl
  · exact absurd suffixes different
  · exact absurd suffixes.symm different
  · rfl

/-- One variant is written, or none. -/
def writeVariant (path content : Bytes) (web : WebFiles) (encoding : StaticEncoding) : WebFiles :=
  if (encoding.compress content).length < content.length then
    web.write (path ++ encoding.suffix) (encoding.compress content)
  else web

theorem precompressFile_eq {web : WebFiles} {path content : Bytes}
    (found : web.read path = some content) :
    precompressFile brotli gzip web path =
      (staticEncodings brotli gzip).foldl (writeVariant path content) web := by
  rw [precompressFile, found]
  rfl

theorem read_writeVariant (path content : Bytes) (web : WebFiles) (encoding : StaticEncoding)
    (other : Bytes) :
    (writeVariant path content web encoding).read other =
      if other = path ++ encoding.suffix then
        if (encoding.compress content).length < content.length then
          some (encoding.compress content)
        else web.read other
      else web.read other := by
  unfold writeVariant
  by_cases smaller : (encoding.compress content).length < content.length
  · simp only [if_pos smaller, WebFiles.read_write]
  · simp only [if_neg smaller, ite_self]

theorem read_writeVariants_of_ne {path content other : Bytes} :
    ∀ {encodings : List StaticEncoding} {web : WebFiles},
      (∀ encoding ∈ encodings, other ≠ path ++ encoding.suffix) →
      (encodings.foldl (writeVariant path content) web).read other = web.read other
  | [], _, _ => rfl
  | encoding :: encodings, web, apart => by
    rw [List.foldl_cons,
      read_writeVariants_of_ne fun encoding member =>
        apart encoding (List.mem_cons_of_mem _ member),
      read_writeVariant, if_neg (apart encoding List.mem_cons_self)]

theorem read_writeVariants {path content : Bytes} {web : WebFiles} {encoding : StaticEncoding}
    (member : encoding ∈ staticEncodings brotli gzip) :
    ((staticEncodings brotli gzip).foldl (writeVariant path content) web).read
        (path ++ encoding.suffix) =
      if (encoding.compress content).length < content.length then
        some (encoding.compress content)
      else web.read (path ++ encoding.suffix) := by
  have different : bytes ".br" ≠ bytes ".gz" := by decide
  simp only [staticEncodings, List.mem_cons, List.not_mem_nil, or_false] at member
  rcases member with rfl | rfl
  · simp only [staticEncodings, List.foldl_cons, List.foldl_nil, read_writeVariant,
      List.append_cancel_left_eq, if_neg different, if_true]
  · simp only [staticEncodings, List.foldl_cons, List.foldl_nil, read_writeVariant,
      List.append_cancel_left_eq, if_neg different.symm, if_true]

theorem mem_paths_writeVariants {path content other : Bytes} (encodings : List StaticEncoding) :
    ∀ web : WebFiles, other ∈ (encodings.foldl (writeVariant path content) web).paths →
      other ∈ web.paths ∨ ∃ encoding ∈ encodings, other = path ++ encoding.suffix := by
  induction encodings with
  | nil => exact fun web there => .inl there
  | cons encoding encodings inductionHypothesis =>
    intro web there
    rcases inductionHypothesis _ there with before | ⟨writer, member, rfl⟩
    · unfold writeVariant at before
      split at before
      · rcases WebFiles.mem_paths_write.1 before with rfl | before
        · exact .inr ⟨encoding, List.mem_cons_self, rfl⟩
        · exact .inl before
      · exact .inl before
    · exact .inr ⟨writer, List.mem_cons_of_mem _ member, rfl⟩

/-- A file's variants are written. -/
theorem Built.precompressFile {dist web : WebFiles} {done : List Bytes} {path : Bytes}
    (names : PlainNames brotli gzip dist) (member : path ∈ dist.paths)
    (worth : isCompressible path) (built : Built brotli gzip dist done web) :
    Built brotli gzip dist (done ++ [path]) (precompressFile brotli gzip web path) := by
  obtain ⟨content, found⟩ : ∃ content, dist.read path = some content :=
    Option.ne_none_iff_exists'.1 fun missing => WebFiles.read_eq_none_iff.1 missing member
  rw [precompressFile_eq ((built.plain path member).trans found)]
  refine ⟨fun other present => ?_, fun other present encoding known => ?_, fun other there => ?_⟩
  · rw [read_writeVariants_of_ne, built.plain other present]
    rintro encoding known rfl
    exact names _ present encoding known (List.suffix_append _ _)
  · by_cases same : other = path
    · subst same
      have whole : variantOf dist encoding other =
          if (encoding.compress content).length < content.length then
            some (encoding.compress content) else none := by
        rw [variantOf, if_pos worth, found, Option.bind_some]
      rw [read_writeVariants known, built.variants other present encoding known, whole]
      split_ifs <;> simp_all
    · rw [read_writeVariants_of_ne, built.variants other present encoding known]
      · simp [same]
      · intro writer writes clash
        exact same (append_suffix_inj known writes clash).1
  · rcases mem_paths_writeVariants _ _ there with before | ⟨writer, writes, rfl⟩
    · exact built.named other before
    · exact .inr ⟨path, member, writer, writes, rfl⟩

theorem Built.precompressDir {dist : WebFiles} (names : PlainNames brotli gzip dist) :
    Built brotli gzip dist (dist.paths.filter isCompressible)
      (precompressDir brotli gzip dist) := by
  suffices every : ∀ (left done : List Bytes) (web : WebFiles),
      (∀ path ∈ left, path ∈ dist.paths ∧ isCompressible path) →
      Built brotli gzip dist done web →
      Built brotli gzip dist (done ++ left)
        (left.foldl (Multimux.precompressFile brotli gzip) web) by
    refine every _ [] dist (fun path member => ?_)
      ⟨fun _ _ => rfl, fun path present encoding known => ?_,
      fun _ present => .inl present⟩
    · simpa using member
    · rw [if_neg List.not_mem_nil, WebFiles.read_eq_none_iff]
      exact fun clash => names _ clash encoding known (List.suffix_append _ _)
  intro left
  induction left with
  | nil => intro done web _ built; simpa using built
  | cons path left inductionHypothesis =>
    intro done web worth built
    obtain ⟨member, compresses⟩ := worth path List.mem_cons_self
    have next := inductionHypothesis (done ++ [path]) _
      (fun other later => worth other (List.mem_cons_of_mem _ later))
      (built.precompressFile names member compresses)
    simpa using next

/-! ### The daemon on what was built -/

variable (brotli gzip)

/-- The encoding makes the file smaller, and its format is one to compress. -/
def worthwhile (path content : Bytes) (encoding : StaticEncoding) : Bool :=
  isCompressible path && (encoding.compress content).length < content.length

/-- The encodings that a file has a variant of. -/
def offered (path content : Bytes) : List StaticEncoding :=
  (staticEncodings brotli gzip).filter (worthwhile path content)

/-- The plain server: it knows only the build's own files, and compresses on request. -/
def compressOnRequest (dist : WebFiles) (urlPath acceptEncoding : Bytes) :
    Except (Nat × String) StaticResponse :=
  let path := trimPrefixByte urlPath slashByte
  let found := (dist.read path).isSome
  let cacheControl :=
    if found && (bytes "assets/").isPrefixOf path then cacheImmutable else cacheRevalidate
  let path := if found then path else bytes "index.html"
  match dist.read path with
  | none => .error (501, "web assets missing — build web/ first")
  | some content =>
    let chosen := (offered brotli gzip path content).find? fun encoding =>
      acceptsEncoding acceptEncoding encoding.name
    let body := (chosen.map (·.compress content)).getD content
    .ok {
      name := path
      cacheControl
      etag := etagOf sha256 body
      vary := offered brotli gzip path content ≠ []
      encoding := chosen.map (·.name)
      body }

variable {brotli gzip}

theorem variantOf_eq {dist : WebFiles} {path content : Bytes}
    (found : dist.read path = some content) (encoding : StaticEncoding) :
    variantOf dist encoding path =
      if worthwhile path content encoding then some (encoding.compress content) else none := by
  simp only [variantOf, found, Option.bind_some, worthwhile, Bool.and_eq_true, decide_eq_true_eq,
    ite_and]

theorem filterMap_ite {α β : Type} (chosen : α → Bool) (image : α → β) (items : List α) :
    (items.filterMap fun item => if chosen item then some (image item) else none) =
      (items.filter chosen).map image := by
  induction items with
  | nil => rfl
  | cons item items inductionHypothesis =>
    by_cases first : chosen item <;> simp [first, inductionHypothesis]

namespace Built

variable {dist web : WebFiles} {path content : Bytes}

theorem read_variant
    (built : Built brotli gzip dist (dist.paths.filter isCompressible) web)
    {encoding : StaticEncoding} (known : encoding ∈ staticEncodings brotli gzip)
    (found : dist.read path = some content) :
    web.read (path ++ encoding.suffix) =
      if worthwhile path content encoding then some (encoding.compress content) else none := by
  have member : path ∈ dist.paths := by
    by_contra absent
    rw [WebFiles.read_eq_none_iff.2 absent] at found
    exact nomatch found
  rw [built.variants path member encoding known, ← variantOf_eq found]
  by_cases worth : isCompressible path
  · rw [if_pos (List.mem_filter.2 ⟨member, worth⟩)]
  · rw [variantOf, if_neg worth, ite_self]

/-- The daemon's index holds the build's own files, each with the variants it is worth. -/
theorem loadStaticFiles (names : PlainNames brotli gzip dist)
    (built : Built brotli gzip dist (dist.paths.filter isCompressible) web)
    (path : Bytes) :
    loadStaticFiles brotli gzip sha256 web path = (dist.read path).map fun content => {
      plain := ⟨path, [], etagOf sha256 content⟩
      compressed := (offered brotli gzip path content).map fun encoding =>
        ⟨path ++ encoding.suffix, encoding.name, etagOf sha256 (encoding.compress content)⟩ } := by
  by_cases member : path ∈ dist.paths
  · obtain ⟨content, found⟩ : ∃ content, dist.read path = some content :=
      Option.ne_none_iff_exists'.1 fun missing => WebFiles.read_eq_none_iff.1 missing member
    have alone : isSibling brotli gzip web path = false := by
      rw [isSibling, List.any_eq_false]
      intro encoding known sibling
      rw [Bool.and_eq_true, List.isSuffixOf_iff_suffix] at sibling
      exact names path member encoding known sibling.1
    have variants : ((staticEncodings brotli gzip).filterMap fun encoding =>
        (web.read (path ++ encoding.suffix)).map fun sibling =>
          (⟨path ++ encoding.suffix, encoding.name, etagOf sha256 sibling⟩ : StaticVariant)) =
        (offered brotli gzip path content).map fun encoding =>
          ⟨path ++ encoding.suffix, encoding.name, etagOf sha256 (encoding.compress content)⟩ := by
      rw [offered, ← filterMap_ite]
      refine List.filterMap_congr fun encoding known => ?_
      rw [built.read_variant known found]
      split <;> rfl
    simp only [Multimux.loadStaticFiles, built.plain path member, found, alone, variants,
      Option.map_some, Bool.false_eq_true, if_false]
  · rw [WebFiles.read_eq_none_iff.2 member, Option.map_none, Multimux.loadStaticFiles]
    cases there : web.read path with
    | none => rfl
    | some content =>
      have present : path ∈ web.paths := by
        by_contra absent
        rw [WebFiles.read_eq_none_iff.2 absent] at there
        exact nomatch there
      have sibling : isSibling brotli gzip web path = true := by
        rcases built.named path present with own | ⟨base, original, encoding, known, rfl⟩
        · exact absurd own member
        · refine List.any_eq_true.2 ⟨encoding, known, ?_⟩
          rw [Bool.and_eq_true, List.isSuffixOf_iff_suffix]
          refine ⟨List.suffix_append _ _, ?_⟩
          rw [List.length_append, Nat.add_sub_cancel, List.take_left, built.plain base original,
            Option.isSome_iff_ne_none]
          exact fun missing => WebFiles.read_eq_none_iff.1 missing original
      exact if_pos sibling

end Built

theorem negotiate_map (plain : StaticVariant) (variant : StaticEncoding → StaticVariant)
    (named : ∀ encoding, (variant encoding).encoding = encoding.name)
    (encodings : List StaticEncoding) (acceptEncoding : Bytes) :
    StaticFile.negotiate ⟨plain, encodings.map variant⟩ acceptEncoding =
      ((encodings.find? fun encoding => acceptsEncoding acceptEncoding encoding.name).map
        variant).getD plain := by
  rw [StaticFile.negotiate, List.find?_map]
  have same : (fun candidate : StaticVariant => acceptsEncoding acceptEncoding candidate.encoding) ∘
      variant = fun encoding => acceptsEncoding acceptEncoding encoding.name := by
    funext encoding
    rw [Function.comp_apply, named]
  rw [same]

/-- What the build wrote ahead, the daemon's index and its choice come to a server that holds
the build's own files and compresses each on request: under every address and for every client
the response is the same, and the variants are no files of their own. -/
theorem staticHandler_precompressed {dist : WebFiles} (names : PlainNames brotli gzip dist)
    (urlPath acceptEncoding : Bytes) :
    staticHandler brotli gzip sha256 (precompressDir brotli gzip dist) urlPath acceptEncoding =
      compressOnRequest brotli gzip sha256 dist urlPath acceptEncoding := by
  have built := Built.precompressDir names
  have index := built.loadStaticFiles sha256 names
  simp only [staticHandler, compressOnRequest, index, Option.isSome_map]
  generalize (if (dist.read (trimPrefixByte urlPath slashByte)).isSome then
    trimPrefixByte urlPath slashByte else bytes "index.html") = path
  cases found : dist.read path with
  | none => rfl
  | some content =>
    have own : path ∈ dist.paths := by
      by_contra absent
      rw [WebFiles.read_eq_none_iff.2 absent] at found
      exact nomatch found
    simp only [Option.map_some, negotiate_map _ (fun encoding : StaticEncoding =>
      (⟨path ++ encoding.suffix, encoding.name, etagOf sha256 (encoding.compress content)⟩ :
        StaticVariant)) (fun _ => rfl)]
    cases picked : (offered brotli gzip path content).find? fun encoding =>
        acceptsEncoding acceptEncoding encoding.name with
    | none =>
      simp only [Option.map_none, Option.getD_none, built.plain path own, found, if_true]
      simp
    | some encoding =>
      have known : encoding ∈ staticEncodings brotli gzip ∧ worthwhile path content encoding :=
        List.mem_filter.1 (List.mem_of_find?_eq_some picked)
      have named : encoding.name ≠ [] := by
        have spelled : bytes "br" ≠ [] ∧ bytes "gzip" ≠ [] := by decide
        simp only [staticEncodings, List.mem_cons, List.not_mem_nil, or_false] at known
        rcases known.1 with rfl | rfl
        · exact spelled.1
        · exact spelled.2
      simp only [Option.map_some, Option.getD_some, built.read_variant known.1 found, known.2,
        if_true, if_neg named]
      simp

end Assets

theorem staticHandler_precompressed_oneFile :
    let half := fun content : Bytes => content.take (content.length / 2)
    let dist : WebFiles := ⟨[(bytes "assets/main.js", [1, 2, 3, 4])]⟩
    staticHandler half id id (precompressDir half id dist) (bytes "/assets/main.js")
        (bytes "gzip, BR;q=0.5") =
      compressOnRequest half id id dist (bytes "/assets/main.js") (bytes "gzip, BR;q=0.5") :=
  staticHandler_precompressed _ (by
    intro path member encoding known ending
    simp only [WebFiles.paths, List.map_cons, List.map_nil, List.mem_singleton] at member
    simp only [staticEncodings, List.mem_cons, List.not_mem_nil, or_false] at known
    subst member
    rcases known with rfl | rfl
    · exact absurd ending (by decide)
    · exact absurd ending (by decide)) _ _

end Multimux
