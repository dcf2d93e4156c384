/-
This file models the origins that a daemon prints for a browser to open: one
origin for each of its names, filtered to those that WebAuthn accepts for the
RP ID, names that resolve from another device first. The first of them stands
in every banner, and a list without one would panic the daemon as it starts.
The RP ID is always the host of one of the origins, whatever name is stored.
-/

import Multimux.Ensure

namespace Multimux

/-! ### The origins -/

/-- An origin with its port spelled out. -/
def httpsOrigin (name : List Char) (port : Nat) : List Char :=
  "https://".toList ++ (name ++ ':' :: (toString port).toList)

/-- Browsers omit a default port from the `Origin` header. -/
def computeOrigins (names : List (List Char)) (port : Nat) : List (List Char) :=
  names.map fun name => if port = 443 then "https://".toList ++ name else httpsOrigin name port

/-- The dev server and the daemon's own localhost origin are added. -/
def devOrigins (origins : List (List Char)) (port : Nat) : List (List Char) :=
  origins ++ ["http://localhost:5173".toList, httpsOrigin localhost port]

/-- The origins and the RP ID of `runServe`; indexing the names panics where there is none. -/
def serveOrigins (tables : TextTables) (dev : Bool) (port : Nat) (names : List (List Char)) :
    Option (List (List Char) × List Char) :=
  names[0]?.map fun host =>
    let rpID := rpIDForHost tables host
    let origins := computeOrigins names port
    if dev then (devOrigins origins port, localhost) else (origins, rpID)

section Display

-- `Hostname()` of what `url.Parse` reads, none where that fails.
variable (hostnameOf : List Char → Option (List Char))

/-- The origin's host is the RP ID or a subdomain of it. -/
def admitsRPID (rpID origin : List Char) : Bool :=
  match hostnameOf origin with
  | none => false
  | some host => host = rpID ∨ '.' :: rpID <:+ host

/-- The origins that a passkey of the relying party may be used on. -/
def loginOrigins (origins : List (List Char)) (rpID : List Char) : List (List Char) :=
  origins.filter (admitsRPID hostnameOf rpID)

/-- The origin is likely to resolve from another device. -/
def resolvable (origin : List Char) : Bool :=
  match hostnameOf origin with
  | none => false
  | some host => '.' ∈ host ∨ host = localhost

/-- The origins in the order they are shown: those that resolve come first. -/
def displayOrigins (origins : List (List Char)) : List (List Char) :=
  origins.filter (resolvable hostnameOf) ++
    origins.filter fun origin => ¬ resolvable hostnameOf origin

/-- What is shown of the login origins. -/
def displayableOrigins (origins : List (List Char)) (rpID : List Char) : List (List Char) :=
  displayOrigins hostnameOf (loginOrigins hostnameOf origins rpID)

/-! ### The banners -/

/-- `url.QueryEscape`: all but letters, digits and four marks goes byte by byte. -/
def queryEscape (text : List Char) : List Char :=
  text.flatMap fun letter =>
    if letter.isAlphanum ∨ letter ∈ ['-', '_', '.', '~'] then [letter]
    else if letter = ' ' then ['+']
    else (String.utf8EncodeChar letter).flatMap fun byte =>
      ['%', (Nat.digitChar (byte.toNat / 16)).toUpper, (Nat.digitChar (byte.toNat % 16)).toUpper]

/-- `String()` of a `CARegen`. -/
def CARegen.string : CARegen → List Char
  | .hostnames => "hostname set changed".toList
  | .expiring => "previous CA expired or was about to".toList
  | .none => "none".toList

/-- The lines of the setup URLs; only the first one is labelled `Open:`. -/
def setupLines (code : List Char) : List Char → List (List Char) → List Char
  | _, [] => []
  | label, origin :: rest =>
    label ++ " ".toList ++ origin ++ "/setup?code=".toList ++ code ++ "\n".toList ++
      setupLines code "  or:".toList rest

/-- `setupBanner`, which indexes the first origin. -/
def setupBanner (display : List (List Char)) (code fingerprint : List Char) :
    Option (List Char) :=
  display[0]?.map fun primary =>
    let hint := if display.length = 1 then "If this doesn't resolve" else "If none of these resolve"
    "\n=== multimux setup ===\n".toList ++ setupLines code "Open:".toList display ++
      "Android trust: ".toList ++ primary ++ "/trust?return=".toList ++
      queryEscape ("/setup?code=".toList ++ code) ++ "\nCA SHA-256: ".toList ++ fingerprint ++
      "\n(code expires in 15 minutes; restart to regenerate)\n".toList ++ hint.toList ++
      (" from your browser, restart with: multimux serve --hostname " ++
        "<name-your-browser-can-reach>\n\n").toList

/-- What a start prints when the authority was made anew. -/
def caRegenBanner (reason : CARegen) (primaryOrigin fingerprint : List Char) : List Char :=
  "\n!! WARNING: local CA regenerated (".toList ++ reason.string ++
    (")\n!! Browsers will refuse this daemon until you re-run `multimux ca trust`\n" ++
      "!! Android trust: ").toList ++ primaryOrigin ++ "/trust\n!! CA SHA-256: ".toList ++
    fingerprint ++ "\n\n".toList

/-- The warning of a start or of the rotation ticker, which indexes the first origin where the
CA was recreated. -/
def regenWarning (reason : CARegen) (display : List (List Char)) (fingerprint : List Char) :
    Option (List Char) :=
  if reason = .none then some []
  else display[0]?.map (caRegenBanner reason · fingerprint)

/-- What a start meets besides its origins; the setup code is there while a setup is pending. -/
structure ServeStart where
  dev : Bool
  port : Nat
  version : List Char
  setupCode : Option (List Char)
  regenerated : CARegen
  fingerprint : List Char

/-- The banner of a pending setup; under `--dev` nothing authenticates. -/
def ServeStart.setup (start : ServeStart) (display : List (List Char)) : Option (List Char) :=
  match start.setupCode with
  | some code => if start.dev then some [] else setupBanner display code start.fingerprint
  | none => some []

/-- The last line before the daemon listens. -/
def ServeStart.listening (start : ServeStart) (display : List (List Char)) : Option (List Char) :=
  display[0]?.map fun primary =>
    "multimux ".toList ++ start.version ++ " listening on :".toList ++
      (toString start.port).toList ++ " (".toList ++ primary ++ ")\n".toList

/-- What `runServe` prints of the displayed origins, none where an index panics. -/
def ServeStart.banners (start : ServeStart) (display : List (List Char)) :
    Option (List Char) := do
  let setup ← start.setup display
  let warning ← regenWarning start.regenerated display start.fingerprint
  let listening ← start.listening display
  return setup ++ warning ++ listening

/-! ### What is displayed -/

variable {hostnameOf} {origins : List (List Char)} {origin rpID : List Char}

theorem admitsRPID_iff : admitsRPID hostnameOf rpID origin = true ↔
    ∃ host, hostnameOf origin = some host ∧ (host = rpID ∨ '.' :: rpID <:+ host) := by
  unfold admitsRPID
  split
  · rename_i none
    simp [none]
  · rename_i host some
    simp [some]

/-- Only the order changes. -/
theorem displayOrigins_perm : (displayOrigins hostnameOf origins).Perm origins := by
  refine List.Perm.trans ?_ (List.filter_append_perm (resolvable hostnameOf) origins)
  exact (List.Perm.refl _).append (.of_eq (by simp))

theorem mem_displayableOrigins_iff :
    origin ∈ displayableOrigins hostnameOf origins rpID ↔
      origin ∈ origins ∧ admitsRPID hostnameOf rpID origin = true :=
  displayOrigins_perm.mem_iff.trans List.mem_filter

/-- An origin is displayed exactly when one admits the RP ID. -/
theorem displayableOrigins_ne_nil_iff :
    displayableOrigins hostnameOf origins rpID ≠ [] ↔
      ∃ origin ∈ origins, admitsRPID hostnameOf rpID origin = true := by
  constructor
  · intro nonempty
    obtain ⟨origin, displayed⟩ := List.exists_mem_of_ne_nil _ nonempty
    exact ⟨origin, mem_displayableOrigins_iff.mp displayed⟩
  · rintro ⟨origin, member, admits⟩
    exact List.ne_nil_of_mem (mem_displayableOrigins_iff.mpr ⟨member, admits⟩)

/-- The host of an origin that admits a dotted RP ID is dotted as well. -/
theorem resolvable_of_admitsRPID (named : '.' ∈ rpID ∨ rpID = localhost)
    (admits : admitsRPID hostnameOf rpID origin = true) : resolvable hostnameOf origin = true := by
  obtain ⟨host, read, same | subdomain⟩ := admitsRPID_iff.mp admits
  · subst same
    rw [resolvable, read]
    exact decide_eq_true named
  · have dotted : '.' ∈ host := subdomain.subset List.mem_cons_self
    rw [resolvable, read]
    exact decide_eq_true (.inl dotted)

/-- For a dotted RP ID every login origin is likely to resolve. -/
theorem displayableOrigins_eq_loginOrigins (named : '.' ∈ rpID ∨ rpID = localhost) :
    displayableOrigins hostnameOf origins rpID = loginOrigins hostnameOf origins rpID := by
  have each : ∀ origin ∈ loginOrigins hostnameOf origins rpID,
      resolvable hostnameOf origin = true :=
    fun origin member => resolvable_of_admitsRPID named (List.mem_filter.mp member).2
  have first : (loginOrigins hostnameOf origins rpID).filter (resolvable hostnameOf) =
      loginOrigins hostnameOf origins rpID := List.filter_eq_self.mpr each
  have last : (loginOrigins hostnameOf origins rpID).filter
      (fun origin => ¬ resolvable hostnameOf origin) = [] := by
    refine List.filter_eq_nil_iff.mpr fun origin member => ?_
    simp [each origin member]
  rw [displayableOrigins, displayOrigins, first, last, List.append_nil]

end Display

/-! ### The names -/

section Names

variable {tables : TextTables} {name host : List Char}

/-- The RP ID of a host is one that WebAuthn accepts. -/
theorem rpIDForHost_named :
    '.' ∈ rpIDForHost tables host ∨ rpIDForHost tables host = localhost := by
  simp only [rpIDForHost]
  split
  · assumption
  · exact .inl (List.mem_append_right _ (by decide))

/-- A label is valid whatever name it stands in, which only the texts of the errors show. -/
theorem validateLabel_other {label : List Char} (valid : validateLabel tables name label = .ok ())
    (other : List Char) :
    validateLabel tables other label = .ok () ∧ byteLength label ≤ 63 := by
  unfold validateLabel at valid ⊢
  split at valid
  · cases valid
  · rename_i nonempty
    split at valid
    · cases valid
    · rename_i short
      split at valid
      · cases valid
      · rename_i hyphens
        split at valid
        · cases valid
        · refine ⟨?_, Nat.le_of_not_lt short⟩
          rw [if_neg nonempty, if_neg short, if_neg hyphens]

theorem byteLength_append (first second : List Char) :
    byteLength (first ++ second) = byteLength first + byteLength second := by
  have added : ∀ (text : List Char) (bytes : Nat),
      text.foldl (fun bytes letter => bytes + letter.utf8Size) bytes = bytes + byteLength text := by
    intro text bytes
    induction text generalizing bytes with
    | nil => rfl
    | cons letter rest inductionHypothesis =>
      rw [byteLength, List.foldl_cons, List.foldl_cons, inductionHypothesis,
        inductionHypothesis (0 + letter.utf8Size)]
      omega
  rw [byteLength, List.foldl_append]
  exact added second _

/-- A name without a dot has one label, so its `.local` form is short enough. -/
theorem ValidName.append_dotLocal (valid : ValidName tables host) (dotless : '.' ∉ host) :
    ValidName tables (host ++ dotLocal) := by
  have single : host.splitOn '.' = [host] := List.splitOn_eq_singleton dotless
  have checked := valid.checkedLabels
  rw [single, validateLabels] at checked
  have label : validateLabel tables host host = .ok () := by
    split at checked
    · cases checked
    · assumption
  obtain ⟨again, short⟩ := validateLabel_other label (host ++ dotLocal)
  have labels : (host ++ dotLocal).splitOn '.' = [host, "local".toList] := by
    show (host ++ '.' :: "local".toList).splitOn '.' = _
    rw [List.splitOn_append_cons_self_of_not_mem dotless]
    rfl
  have total : byteLength (host ++ dotLocal) ≤ 253 := by
    rw [byteLength_append]
    have six : byteLength dotLocal = 6 := rfl
    omega
  rw [ValidName, validateName, if_neg (by simp [dotLocal]), if_neg (Nat.not_lt.mpr total), labels,
    validateLabels, again]
  rfl

theorem validName_localhost : ValidName tables localhost := rfl

end Names

/-! ### The RP ID has an origin -/

/-- `Hostname()` of an `https` URL that is made of a valid name and a port returns the name. -/
structure ReadsNames (tables : TextTables) (hostnameOf : List Char → Option (List Char)) :
    Prop where
  portless : ∀ name, ValidName tables name →
    hostnameOf ("https://".toList ++ name) = some name
  ported : ∀ name port, ValidName tables name → 1 ≤ port → port ≤ 65535 →
    hostnameOf (httpsOrigin name port) = some name

section Served

variable {tables : TextTables} {hostnameOf : List Char → Option (List Char)} {port : Nat}
  {names : List (List Char)}

theorem ReadsNames.exists_computeOrigins (reads : ReadsNames tables hostnameOf) (low : 1 ≤ port)
    (high : port ≤ 65535) {name : List Char} (valid : ValidName tables name)
    (member : name ∈ names) :
    ∃ origin ∈ computeOrigins names port, hostnameOf origin = some name := by
  refine ⟨_, List.mem_map_of_mem member, ?_⟩
  split
  · exact reads.portless name valid
  · exact reads.ported name port valid low high

/-- The RP ID of a host is among the names of the daemon, and a valid one. -/
theorem rpIDForHost_answered {host : List Char} (valid : ValidName tables host)
    (extraSANs : List Char) :
    ValidName tables (rpIDForHost tables host) ∧
      rpIDForHost tables host ∈ answeredNames tables host extraSANs := by
  rw [rpIDForHost, valid.canonicalHost_eq]
  split
  · exact ⟨valid, List.mem_append_left _ (List.mem_append_left _ (List.mem_singleton_self _))⟩
  · rename_i other
    obtain ⟨dotless, -⟩ := not_or.mp other
    refine ⟨valid.append_dotLocal dotless, List.mem_append_left _ (List.mem_append_right _ ?_)⟩
    rw [if_neg dotless]
    exact List.mem_singleton_self _

/-- The origins that `runServe` displays keep the order of its names. -/
theorem serveOrigins_keeps_order {dev : Bool} {origins : List (List Char)} {rpID : List Char}
    (served : serveOrigins tables dev port names = some (origins, rpID)) :
    displayableOrigins hostnameOf origins rpID = loginOrigins hostnameOf origins rpID := by
  refine displayableOrigins_eq_loginOrigins ?_
  obtain ⟨host, -, chosen⟩ := Option.map_eq_some_iff.mp served
  cases dev with
  | true =>
    cases chosen
    exact .inr rfl
  | false =>
    cases chosen
    exact rpIDForHost_named

/-- The names of a start yield origins, one of which has the RP ID as its host. -/
theorem exists_origin_of_rpID (reads : ReadsNames tables hostnameOf) {calls : HostnamesCalls}
    {store after : IdentityStore} (computed : hostnames tables calls store = (.ok names, after))
    (dev : Bool) (low : 1 ≤ port) (high : port ≤ 65535) :
    ∃ origins rpID, serveOrigins tables dev port names = some (origins, rpID) ∧
      ∃ origin ∈ origins, hostnameOf origin = some rpID := by
  obtain ⟨host, extraSANs, valid, rfl⟩ := hostnames_ok computed
  refine ⟨_, _, rfl, ?_⟩
  cases dev with
  | true =>
    refine ⟨_, List.mem_append_right _ (List.mem_cons_of_mem _ (List.mem_singleton_self _)), ?_⟩
    exact reads.ported localhost port validName_localhost low high
  | false =>
    obtain ⟨validID, answered⟩ := rpIDForHost_answered valid extraSANs
    exact reads.exists_computeOrigins low high validID answered

/-- A list with a first origin to index is printed whole. -/
theorem banners_isSome {display : List (List Char)} (nonempty : display ≠ []) :
    (∀ start : ServeStart, (start.banners display).isSome) ∧
      ∀ reason fingerprint, (regenWarning reason display fingerprint).isSome := by
  obtain ⟨primary, rest, rfl⟩ := List.exists_cons_of_ne_nil nonempty
  have warned : ∀ reason fingerprint,
      (regenWarning reason (primary :: rest) fingerprint).isSome := by
    intro reason fingerprint
    unfold regenWarning
    split
    · rfl
    · rfl
  refine ⟨fun start => ?_, warned⟩
  have setup : (start.setup (primary :: rest)).isSome := by
    unfold ServeStart.setup
    split
    · split
      · rfl
      · rfl
    · rfl
  obtain ⟨banner, printed⟩ := Option.isSome_iff_exists.mp setup
  obtain ⟨warning, warns⟩ :=
    Option.isSome_iff_exists.mp (warned start.regenerated start.fingerprint)
  simp [ServeStart.banners, printed, warns, ServeStart.listening]

end Served

/-! ### Reading an origin -/

/-- `Hostname()` on an origin: what stands between its scheme and its port. -/
def originHostname (origin : List Char) : Option (List Char) :=
  if "https://".toList <+: origin then some ((origin.drop 8).takeWhile (· ≠ ':'))
  else if "http://".toList <+: origin then some ((origin.drop 7).takeWhile (· ≠ ':'))
  else none

theorem originHostname_https (rest : List Char) :
    originHostname ("https://".toList ++ rest) = some (rest.takeWhile (· ≠ ':')) :=
  if_pos (List.prefix_append _ _)

theorem takeWhile_colon {name : List Char} (clean : ':' ∉ name) :
    name.takeWhile (· ≠ ':') = name ∧
      ∀ rest, (name ++ ':' :: rest).takeWhile (· ≠ ':') = name := by
  have whole : ∀ letter ∈ name, decide (letter ≠ ':') = true := fun letter member =>
    decide_eq_true fun colon => clean (colon ▸ member)
  refine ⟨List.takeWhile_eq_self_iff.mpr whole, fun rest => ?_⟩
  rw [List.takeWhile_append_of_pos whole]
  simp

theorem ValidName.colon_notMem {tables : TextTables} {name : List Char}
    (valid : ValidName tables name) : ':' ∉ name := by
  intro member
  rcases valid.runes _ member with dot | right
  · cases dot
  · cases right

/-- What ends a host is never part of a valid name. -/
theorem readsNames_originHostname (tables : TextTables) : ReadsNames tables originHostname where
  portless _ valid :=
    (originHostname_https _).trans (congrArg some (takeWhile_colon valid.colon_notMem).1)
  ported _ _ valid _ _ :=
    (originHostname_https _).trans (congrArg some ((takeWhile_colon valid.colon_notMem).2 _))

/-! ### The displayed origin exists -/

/-- Whatever is stored, a start that finds its names displays an origin, so that neither its
banners nor those of the rotation ticker panic. -/
theorem displayableOrigins_ne_nil {tables : TextTables}
    {hostnameOf : List Char → Option (List Char)} (reads : ReadsNames tables hostnameOf)
    {calls : HostnamesCalls} {store after : IdentityStore} {names : List (List Char)}
    (computed : hostnames tables calls store = (.ok names, after)) (dev : Bool) (port : Nat)
    (low : 1 ≤ port) (high : port ≤ 65535) :
    ∃ origins rpID, serveOrigins tables dev port names = some (origins, rpID) ∧
      displayableOrigins hostnameOf origins rpID ≠ [] ∧
      (∀ start : ServeStart,
        (start.banners (displayableOrigins hostnameOf origins rpID)).isSome) ∧
      ∀ reason fingerprint, (regenWarning reason (displayableOrigins hostnameOf origins rpID)
        fingerprint).isSome := by
  obtain ⟨origins, rpID, served, origin, member, read⟩ :=
    exists_origin_of_rpID reads computed dev low high
  have admits : admitsRPID hostnameOf rpID origin = true :=
    admitsRPID_iff.mpr ⟨rpID, read, .inl rfl⟩
  have nonempty := displayableOrigins_ne_nil_iff.mpr ⟨origin, member, admits⟩
  exact ⟨origins, rpID, served, nonempty, banners_isSome nonempty⟩

/-- A first start on a machine of that name. -/
def firstStart (osHostname : String) : HostnamesCalls :=
  ⟨.ok, .ok osHostname.toList, .ok, .ok, .ok⟩

/-- A store that nothing was written to. -/
def unwrittenStore : IdentityStore := ⟨fun _ => none, 0⟩

theorem macmini_is_displayed :
    hostnames asciiTables (firstStart "Macmini.local") unwrittenStore =
        (.ok ["macmini".toList, "macmini.local".toList],
          unwrittenStore.write [("hostname", "macmini".toList)]) ∧
      ∃ origins rpID, serveOrigins asciiTables false 8686
          ["macmini".toList, "macmini.local".toList] = some (origins, rpID) ∧
        displayableOrigins originHostname origins rpID ≠ [] := by
  have computed : hostnames asciiTables (firstStart "Macmini.local") unwrittenStore =
      (.ok ["macmini".toList, "macmini.local".toList],
        unwrittenStore.write [("hostname", "macmini".toList)]) := by
    have none : extraNames asciiTables [] = [] := List.mergeSort_nil
    show (Except.ok (["macmini".toList, "macmini.local".toList] ++ extraNames asciiTables []),
      unwrittenStore.write [("hostname", "macmini".toList)]) = _
    rw [none]
    rfl
  obtain ⟨origins, rpID, served, displayed, -⟩ := displayableOrigins_ne_nil
    (readsNames_originHostname asciiTables) computed false 8686 (by decide) (by decide)
  exact ⟨computed, origins, rpID, served, displayed⟩

end Multimux
