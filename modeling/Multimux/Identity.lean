/-
This file models the two paths that write the daemon's hostname: `Apply`, which
validates a set of changes and writes it in one transaction, and the start of
the daemon, which seeds the hostname and folds what is stored. Both write a
valid name, and a valid name is its own folded form, so the RP ID of a stored
hostname that is valid once folded moves only where `Apply` reports it.
-/

import Multimux.Credentials
import Multimux.Hostname
import Multimux.TextOrder

namespace Multimux

/-! ### The settings -/

/-- The rows of `settings` by their key. -/
abbrev Settings := String → Option (List Char)

/-- `GetSetting`: a row that is missing reads as empty. -/
def Settings.get (settings : Settings) (key : String) : List Char := (settings key).getD []

/-- `SetSetting`. -/
def Settings.set (settings : Settings) (key : String) (value : List Char) : Settings :=
  Function.update settings key (some value)

/-- The writes of `SetSettings`. -/
def Settings.setAll (settings : Settings) (values : List (String × List Char)) : Settings :=
  values.foldl (fun settings entry => settings.set entry.1 entry.2) settings

/-- The settings and how many passkeys are registered. -/
structure IdentityStore where
  settings : Settings
  credentials : Nat

/-- The hostname that is stored. -/
def IdentityStore.hostname (store : IdentityStore) : List Char := store.settings.get "hostname"

/-- The store after writes to its settings. -/
def IdentityStore.write (store : IdentityStore) (values : List (String × List Char)) :
    IdentityStore :=
  { store with settings := store.settings.setAll values }

/-- A map of changes, with its keys in the order of an iteration. -/
structure IdentityChanges where
  entries : List (String × List Char)
  keys : (entries.map Prod.fst).Nodup

section Identity

variable (tables : TextTables)

/-! ### Validation -/

/-- What a hostname must be: a valid name with a dot, or localhost. -/
def validateHostname (host : List Char) : Except String Unit :=
  if host = [] then .error "hostname must not be empty"
  else
    match validateName tables host with
    | .error error => .error ("hostname: " ++ error)
    | .ok () =>
      if '.' ∉ host ∧ host ≠ localhost then
        .error ("hostname " ++ tables.quote host ++ " must contain a dot (or be \"localhost\")" ++
          " — WebAuthn rejects other dotless RP IDs; try " ++ tables.quote (host ++ dotLocal))
      else .ok ()

/-- The entries of a list of SANs, up to the first that is wrong. -/
def foldSANs : List (List Char) → Except String (List (List Char))
  | [] => .ok []
  | entry :: rest =>
    let name := canonicalHost tables entry
    if name = [] then foldSANs rest
    else
      match validateName tables name with
      | .error error => .error ("extra SAN: " ++ error)
      | .ok () => (foldSANs rest).map (name :: ·)

/-- The additional names in the form that is stored, each of them once. -/
def normalizeSANs (raw : List Char) : Except String (List Char) :=
  (foldSANs tables (raw.splitOn ',')).map ([','].intercalate ·)

/-- An empty port falls back to the default. -/
def validatePort (port : List Char) : Except String Unit :=
  if port = [] then .ok ()
  else
    let error := "port " ++ tables.quote port ++ " must be an integer between 1 and 65535"
    match parseInt port with
    | none => .error error
    | some number => if number < 1 ∨ 65535 < number then .error error else .ok ()

/-- What is written for one change. -/
def validateChange (key : String) (value : List Char) : Except String (List Char) :=
  match key with
  | "hostname" =>
    let host := canonicalHost tables value
    (validateHostname tables host).map fun () => host
  | "extra_sans" => normalizeSANs tables value
  | "port" => (validatePort tables value).map fun () => value
  | _ => .error ("unknown identity setting " ++ tables.quote key.toList)

/-- The loop over the changes, up to the first that is wrong. -/
def validateChanges : List (String × List Char) → Except String (List (String × List Char))
  | [] => .ok []
  | (key, value) :: rest =>
    match validateChange tables key value with
    | .error error => .error error
    | .ok value => (validateChanges rest).map ((key, value) :: ·)

/-! ### Apply -/

/-- What a change of the settings is refused with. -/
inductive ApplyError
  | failed (error : String)
  | rpChange (prev next : List Char) (credentials : Nat)
  deriving DecidableEq

/-- `Error`; the text of an `RPChangeError` names both RP IDs. -/
def ApplyError.error : ApplyError → String
  | .failed error => error
  | .rpChange prev next credentials =>
    "hostname " ++ tables.quote next ++ " would change the WebAuthn RP ID from " ++
      tables.quote (rpIDForHost tables prev) ++ " to " ++
      tables.quote (rpIDForHost tables next) ++ ", which invalidates all " ++
      toString credentials ++ " registered passkey(s)"

/-- How the store calls of an `Apply` come out. -/
structure ApplyCalls where
  getSetting : Outcome
  countCredentials : Outcome
  setSettings : Outcome

/-- A store that works. -/
def ApplyCalls.working : ApplyCalls := ⟨.ok, .ok, .ok⟩

/-- Whether the changes alter the RP ID, which takes a confirmation once a passkey is
registered. A stored name that is not valid binds no passkey. -/
def rpChanged (validated : List (String × List Char)) (confirm : Bool) (calls : ApplyCalls)
    (store : IdentityStore) : Except ApplyError Bool :=
  match validated.lookup "hostname" with
  | none => .ok false
  | some host =>
    match calls.getSetting with
    | .fails error => .error (.failed error)
    | .ok =>
      let prev := store.hostname
      if prev ≠ [] ∧ ValidName tables (canonicalHost tables prev) ∧
          rpIDForHost tables prev ≠ rpIDForHost tables host then
        match calls.countCredentials with
        | .fails error => .error (.failed error)
        | .ok =>
          if 0 < store.credentials ∧ ¬ confirm then
            .error (.rpChange prev host store.credentials)
          else .ok true
      else .ok false

/-- `Apply`. The writes are one transaction, which writes nothing when it fails. -/
def apply (changes : IdentityChanges) (confirm : Bool) (calls : ApplyCalls)
    (store : IdentityStore) : Except ApplyError Bool × IdentityStore :=
  match validateChanges tables changes.entries with
  | .error error => (.error (.failed error), store)
  | .ok validated =>
    match rpChanged tables validated confirm calls store with
    | .error error => (.error error, store)
    | .ok changed =>
      match calls.setSettings with
      | .fails error => (.error (.failed error), store)
      | .ok => (.ok changed, store.write validated)

/-- The one change that `--hostname` asks for. -/
def hostnameChange (host : List Char) : IdentityChanges :=
  ⟨[("hostname", host)], List.nodup_singleton _⟩

/-- `applyHostname`, with the text of its error. -/
def applyHostname (host : List Char) (calls : ApplyCalls) (store : IdentityStore) :
    Except String Unit × IdentityStore :=
  match apply tables (hostnameChange host) false calls store with
  | (.ok _, after) => (.ok (), after)
  | (.error (.rpChange prev next credentials), after) =>
    (.error ("--hostname " ++ (ApplyError.rpChange prev next credentials).error tables ++
      ".\nRun `multimux auth reset --yes` first, then retry with --hostname"), after)
  | (.error (.failed error), after) => (.error ("--hostname: " ++ error), after)

/-! ### The start of the daemon -/

/-- How the calls of `hostnames` come out. -/
structure HostnamesCalls where
  getHostname : Outcome
  osHostname : Except String (List Char)
  getStored : Outcome
  setHostname : Outcome
  getSANs : Outcome

/-- `strings.TrimSuffix`. -/
def trimSuffix (text suffix : List Char) : List Char :=
  if suffix <:+ text then text.take (text.length - suffix.length) else text

/-- A read whose error is ignored. -/
def Outcome.orEmpty (outcome : Outcome) (value : List Char) : List Char :=
  match outcome with
  | .ok => value
  | .fails _ => []

/-- The extra names of a stored list of SANs, sorted; an entry that is not valid is left out. -/
def extraNames (stored : List Char) : List (List Char) :=
  (((stored.splitOn ',').map (canonicalHost tables)).filter fun name =>
    ValidName tables name).mergeSort sortsBefore

/-- The names that the daemon answers to. -/
def answeredNames (host extraSANs : List Char) : List (List Char) :=
  [host] ++ (if '.' ∈ host then [] else [host ++ dotLocal]) ++ extraNames tables extraSANs

/-- What is stored, or a seed from the machine's own name. -/
def seedHostname (calls : HostnamesCalls) (store : IdentityStore) : Except String (List Char) :=
  if store.hostname = [] then calls.osHostname.map (trimSuffix · dotLocal) else .ok store.hostname

/-- `hostnames` at the start: the stored name, or the machine's, and all names of the certificate.
-/
def hostnames (calls : HostnamesCalls) (store : IdentityStore) :
    Except String (List (List Char)) × IdentityStore :=
  match calls.getHostname with
  | .fails error => (.error error, store)
  | .ok =>
    match seedHostname calls store with
    | .error error => (.error error, store)
    | .ok seed =>
      let host := canonicalHost tables seed
      match validateName tables host with
      | .error error => (.error ("stored hostname is unusable: " ++ error ++
          "\nRestart once with --hostname <name-your-browser-can-reach> to replace it"), store)
      | .ok () =>
        let names := answeredNames tables host
          (calls.getSANs.orEmpty (store.settings.get "extra_sans"))
        if calls.getStored.orEmpty store.hostname = host then (.ok names, store)
        else
          match calls.setHostname with
          | .fails error => (.error error, store)
          | .ok => (.ok names, store.write [("hostname", host)])

end Identity

/-! ### Writes of several keys -/

theorem Settings.setAll_of_notMem {settings : Settings} {values : List (String × List Char)}
    {key : String} (absent : key ∉ values.map Prod.fst) :
    settings.setAll values key = settings key := by
  induction values generalizing settings with
  | nil => rfl
  | cons entry rest inductionHypothesis =>
    obtain ⟨different, later⟩ := not_or.mp (List.mem_cons.not.mp absent)
    show Settings.setAll (settings.set entry.1 entry.2) rest key = settings key
    rw [inductionHypothesis later]
    exact Function.update_of_ne different _ _

theorem Settings.setAll_of_mem {settings : Settings} {values : List (String × List Char)}
    (keys : (values.map Prod.fst).Nodup) {key : String} {value : List Char}
    (member : (key, value) ∈ values) : settings.setAll values key = some value := by
  induction values generalizing settings with
  | nil => cases member
  | cons entry rest inductionHypothesis =>
    obtain ⟨fresh, distinct⟩ := List.nodup_cons.mp keys
    show Settings.setAll (settings.set entry.1 entry.2) rest key = some value
    rcases List.mem_cons.mp member with rfl | later
    · rw [Settings.setAll_of_notMem fresh]
      exact Function.update_self ..
    · exact inductionHypothesis distinct later

/-- Writing the same values once more, in any order, changes nothing. -/
theorem Settings.setAll_perm {settings : Settings} {values again : List (String × List Char)}
    (keys : (values.map Prod.fst).Nodup) (same : values.Perm again) :
    (settings.setAll values).setAll again = settings.setAll values := by
  funext key
  by_cases written : key ∈ again.map Prod.fst
  · obtain ⟨⟨_, value⟩, member, rfl⟩ := List.mem_map.mp written
    rw [Settings.setAll_of_mem ((same.map Prod.fst).nodup keys) member,
      Settings.setAll_of_mem keys (same.mem_iff.mpr member)]
  · exact Settings.setAll_of_notMem written

theorem IdentityStore.hostname_write {store : IdentityStore}
    {values : List (String × List Char)} (keys : (values.map Prod.fst).Nodup) {host : List Char}
    (member : ("hostname", host) ∈ values) : (store.write values).hostname = host := by
  show (store.settings.setAll values "hostname").getD [] = host
  rw [Settings.setAll_of_mem keys member, Option.getD_some]

theorem lookup_eq_some_iff_mem {values : List (String × List Char)}
    (keys : (values.map Prod.fst).Nodup) {key : String} {value : List Char} :
    values.lookup key = some value ↔ (key, value) ∈ values := by
  induction values with
  | nil => simp
  | cons entry rest inductionHypothesis =>
    obtain ⟨fresh, distinct⟩ := List.nodup_cons.mp keys
    obtain ⟨name, content⟩ := entry
    by_cases same : key = name
    · subst same
      have none : (key, value) ∉ rest := fun later =>
        fresh (List.mem_map.mpr ⟨_, later, rfl⟩)
      simp [none, eq_comm]
    · have other : (key == name) = false := beq_eq_false_iff_ne.mpr same
      rw [List.lookup_cons, other]
      simp [inductionHypothesis distinct, same]

/-! ### What validation yields -/

section Laws

variable {tables : TextTables}

/-- A validated hostname is a valid name, and its RP ID is itself. -/
theorem validName_of_validateHostname {host : List Char}
    (valid : validateHostname tables host = .ok ()) :
    host ≠ [] ∧ ValidName tables host ∧ ('.' ∈ host ∨ host = localhost) := by
  unfold validateHostname at valid
  split at valid
  · cases valid
  · rename_i nonempty
    split at valid
    · cases valid
    · rename_i named
      split at valid
      · cases valid
      · rename_i dotted
        exact ⟨nonempty, named, by tauto⟩

theorem validateHostname_of_validateChange {raw host : List Char}
    (made : validateChange tables "hostname" raw = .ok host) :
    validateHostname tables host = .ok () := by
  simp only [validateChange] at made
  cases checked : validateHostname tables (canonicalHost tables raw) with
  | error error =>
    rw [checked] at made
    cases made
  | ok _ =>
    rw [checked] at made
    cases made
    exact checked

theorem validateChanges_cons {key : String} {value : List Char}
    {rest validated : List (String × List Char)}
    (done : validateChanges tables ((key, value) :: rest) = .ok validated) :
    ∃ here later, validateChange tables key value = .ok here ∧
      validateChanges tables rest = .ok later ∧ validated = (key, here) :: later := by
  rw [validateChanges] at done
  split at done
  · cases done
  · rename_i here valid
    cases later : validateChanges tables rest with
    | error error =>
      rw [later] at done
      cases done
    | ok others =>
      rw [later] at done
      cases done
      exact ⟨here, others, valid, rfl, rfl⟩

theorem validateChanges_keys {entries validated : List (String × List Char)}
    (done : validateChanges tables entries = .ok validated) :
    validated.map Prod.fst = entries.map Prod.fst := by
  induction entries generalizing validated with
  | nil =>
    cases done
    rfl
  | cons entry rest inductionHypothesis =>
    obtain ⟨here, later, -, others, rfl⟩ := validateChanges_cons done
    rw [List.map_cons, List.map_cons, inductionHypothesis others]

/-- A validated change is what its own check made of it. -/
theorem validateChange_of_mem {entries validated : List (String × List Char)}
    (done : validateChanges tables entries = .ok validated) {key : String} {value : List Char}
    (member : (key, value) ∈ validated) :
    ∃ raw, validateChange tables key raw = .ok value := by
  induction entries generalizing validated with
  | nil =>
    cases done
    cases member
  | cons entry rest inductionHypothesis =>
    obtain ⟨here, later, valid, others, rfl⟩ := validateChanges_cons done
    rcases List.mem_cons.mp member with same | inside
    · cases same
      exact ⟨entry.2, valid⟩
    · exact inductionHypothesis others inside

/-- The order of the changes does not matter to whether they are valid, nor to what is
written. -/
theorem validateChanges_perm {entries again validated : List (String × List Char)}
    (same : entries.Perm again) (done : validateChanges tables entries = .ok validated) :
    ∃ others, validateChanges tables again = .ok others ∧ validated.Perm others := by
  induction same generalizing validated with
  | nil => exact ⟨validated, done, .refl _⟩
  | cons entry _ inductionHypothesis =>
    obtain ⟨here, later, valid, rest, rfl⟩ := validateChanges_cons done
    obtain ⟨others, done', perm⟩ := inductionHypothesis rest
    exact ⟨(entry.1, here) :: others, by simp [validateChanges, valid, done', Except.map],
      perm.cons _⟩
  | swap first second rest =>
    obtain ⟨here, later, valid, remaining, rfl⟩ := validateChanges_cons done
    obtain ⟨next, others, also, left, rfl⟩ := validateChanges_cons remaining
    exact ⟨(first.1, next) :: (second.1, here) :: others,
      by simp [validateChanges, valid, also, left, Except.map], .swap ..⟩
  | trans _ _ first second =>
    obtain ⟨middle, done', perm⟩ := first done
    obtain ⟨others, done'', perm'⟩ := second done'
    exact ⟨others, done'', perm.trans perm'⟩

/-! ### Apply, taken apart -/

/-- An `Apply` that succeeds. -/
theorem apply_ok {changes : IdentityChanges} {confirm : Bool} {calls : ApplyCalls}
    {store after : IdentityStore} {changed : Bool}
    (applied : apply tables changes confirm calls store = (.ok changed, after)) :
    ∃ validated, validateChanges tables changes.entries = .ok validated ∧
      rpChanged tables validated confirm calls store = .ok changed ∧
      after = store.write validated := by
  unfold apply at applied
  split at applied
  · cases applied
  · rename_i validated valid
    split at applied
    · cases applied
    · rename_i guarded
      split at applied
      · cases applied
      · cases applied
        exact ⟨validated, valid, guarded, rfl⟩

/-- An `Apply` that fails writes nothing. -/
theorem apply_error {changes : IdentityChanges} {confirm : Bool} {calls : ApplyCalls}
    {store after : IdentityStore} {error : ApplyError}
    (applied : apply tables changes confirm calls store = (.error error, after)) :
    after = store := by
  unfold apply at applied
  split at applied
  · cases applied
    rfl
  · split at applied
    · cases applied
      rfl
    · split at applied <;> cases applied
      rfl

/-- The hostname after an `Apply` that succeeds: the one it had, or a valid name. -/
theorem apply_hostname {changes : IdentityChanges} {confirm : Bool} {calls : ApplyCalls}
    {store after : IdentityStore} {changed : Bool}
    (applied : apply tables changes confirm calls store = (.ok changed, after)) :
    changed = false ∧ after.hostname = store.hostname ∨
      ValidName tables after.hostname ∧ after.hostname ≠ [] ∧
        ∃ validated, validated.lookup "hostname" = some after.hostname ∧
          rpChanged tables validated confirm calls store = .ok changed := by
  obtain ⟨validated, valid, guarded, rfl⟩ := apply_ok applied
  have keys : (validated.map Prod.fst).Nodup := validateChanges_keys valid ▸ changes.keys
  cases named : validated.lookup "hostname" with
  | none =>
    have absent : "hostname" ∉ validated.map Prod.fst := by
      intro present
      obtain ⟨⟨_, value⟩, member, rfl⟩ := List.mem_map.mp present
      rw [(lookup_eq_some_iff_mem keys).mpr member] at named
      cases named
    left
    rw [rpChanged, named] at guarded
    cases guarded
    refine ⟨rfl, ?_⟩
    show (store.settings.setAll validated "hostname").getD [] = _
    rw [Settings.setAll_of_notMem absent]
    rfl
  | some host =>
    right
    have member := (lookup_eq_some_iff_mem keys).mp named
    obtain ⟨raw, made⟩ := validateChange_of_mem valid member
    obtain ⟨nonempty, right, -⟩ :=
      validName_of_validateHostname (validateHostname_of_validateChange made)
    rw [IdentityStore.hostname_write keys member]
    exact ⟨right, nonempty, validated, named, guarded⟩

/-! ### The RP ID of a valid name -/

/-- The stored hostname is valid once it is folded. -/
def IdentityStore.Named (tables : TextTables) (store : IdentityStore) : Prop :=
  ValidName tables (canonicalHost tables store.hostname)

instance (store : IdentityStore) : Decidable (store.Named tables) :=
  inferInstanceAs (Decidable (ValidName tables _))

/-- The second store has a valid hostname with the RP ID of the first. -/
structure SameRPID (tables : TextTables) (store after : IdentityStore) : Prop where
  named : after.Named tables
  same : rpIDForHost tables after.hostname = rpIDForHost tables store.hostname

theorem IdentityStore.Named.sameRPID {store after : IdentityStore} (named : store.Named tables)
    (kept : after.hostname = store.hostname) : SameRPID tables store after where
  named := by rwa [IdentityStore.Named, kept]
  same := by rw [kept]

theorem IdentityStore.Named.hostname_ne_nil {store : IdentityStore} (named : store.Named tables) :
    store.hostname ≠ [] := by
  intro empty
  rw [IdentityStore.Named, empty] at named
  cases named

/-- What the guard lets pass: no change of a valid name's RP ID, or one that is confirmed or
meets no passkey. -/
theorem rpChanged_ok {validated : List (String × List Char)} {host : List Char}
    (change : validated.lookup "hostname" = some host) {confirm : Bool} {calls : ApplyCalls}
    {store : IdentityStore} (named : store.Named tables) {changed : Bool}
    (guarded : rpChanged tables validated confirm calls store = .ok changed) :
    rpIDForHost tables store.hostname = rpIDForHost tables host ∨
      confirm = true ∨ store.credentials = 0 := by
  simp only [rpChanged, change] at guarded
  split at guarded
  · cases guarded
  · split at guarded
    · split at guarded
      · cases guarded
      · split at guarded
        · cases guarded
        · rename_i allowed
          cases confirm with
          | true => exact .inr (.inl rfl)
          | false => exact .inr (.inr (by simpa using allowed))
    · rename_i unguarded
      by_contra differs
      exact unguarded ⟨named.hostname_ne_nil, named, fun same => differs (.inl same)⟩

/-- An unconfirmed `Apply` beside a passkey keeps the RP ID. -/
theorem apply_sameRPID {changes : IdentityChanges} {calls : ApplyCalls} {store : IdentityStore}
    (named : store.Named tables) (registered : 0 < store.credentials) :
    SameRPID tables store (apply tables changes false calls store).2 := by
  generalize result : apply tables changes false calls store = done
  obtain ⟨outcome, after⟩ := done
  cases outcome with
  | error error =>
    rw [apply_error result]
    exact named.sameRPID rfl
  | ok changed =>
    rcases apply_hostname result with ⟨-, kept⟩ | ⟨valid, -, validated, change, guarded⟩
    · exact named.sameRPID kept
    · have folded : after.Named tables := by
        rw [IdentityStore.Named, valid.canonicalHost_eq]
        exact valid
      rcases rpChanged_ok change named guarded with same | confirmed | none
      · exact ⟨folded, same.symm⟩
      · cases confirmed
      · exact absurd registered (by omega)

theorem applyHostname_snd (host : List Char) (calls : ApplyCalls) (store : IdentityStore) :
    (applyHostname tables host calls store).2 =
      (apply tables (hostnameChange host) false calls store).2 := by
  unfold applyHostname
  split <;> rename_i result <;> rw [result]

/-- A start writes at most the folded form of the hostname, which has the same RP ID. -/
theorem hostnames_sameRPID {calls : HostnamesCalls} {store : IdentityStore}
    (named : store.Named tables) : SameRPID tables store (hostnames tables calls store).2 := by
  have seeded : seedHostname calls store = .ok store.hostname := if_neg named.hostname_ne_nil
  simp only [hostnames, seeded]
  split
  · exact named.sameRPID rfl
  · split
    · exact named.sameRPID rfl
    · split
      · exact named.sameRPID rfl
      · split
        · exact named.sameRPID rfl
        · have written : (store.write
              [("hostname", canonicalHost tables store.hostname)]).hostname =
                canonicalHost tables store.hostname := by
            refine IdentityStore.hostname_write ?_ (List.mem_singleton_self _)
            exact List.nodup_singleton "hostname"
          refine ⟨?_, ?_⟩
          · rw [IdentityStore.Named, written, ValidName.canonicalHost_eq named]
            exact named
          · rw [written, rpIDForHost_canonicalHost named]

/-- A start that succeeds answers to the names of a valid hostname. -/
theorem hostnames_ok {calls : HostnamesCalls} {store after : IdentityStore}
    {names : List (List Char)} (computed : hostnames tables calls store = (.ok names, after)) :
    ∃ host extraSANs, ValidName tables host ∧ names = answeredNames tables host extraSANs := by
  simp only [hostnames] at computed
  split at computed
  · cases computed
  · split at computed
    · cases computed
    · split at computed
      · cases computed
      · rename_i valid
        split at computed
        · cases computed
          exact ⟨_, _, valid, rfl⟩
        · split at computed
          · cases computed
          · cases computed
            exact ⟨_, _, valid, rfl⟩

/-! ### Sequences of changes and starts -/

/-- An `Apply`, by the settings API or by the flag, a start, or a change of the passkeys. -/
inductive IdentityAction
  | apply (changes : IdentityChanges) (confirm : Bool) (calls : ApplyCalls)
  | flag (host : List Char) (calls : ApplyCalls)
  | starts (calls : HostnamesCalls)
  | passkeys (count : Nat)

/-- One action on the store. -/
def stepIdentity (tables : TextTables) (store : IdentityStore) :
    IdentityAction → Option IdentityStore
  | .apply changes confirm calls => some (apply tables changes confirm calls store).2
  | .flag host calls => some (applyHostname tables host calls store).2
  | .starts calls => some (hostnames tables calls store).2
  | .passkeys count => some { store with credentials := count }

/-- An `Apply` is not confirmed and meets a passkey. -/
def Unconfirmed (store : IdentityStore) : IdentityAction → Prop
  | .apply _ confirm _ => confirm = false ∧ 0 < store.credentials
  | .flag _ _ => 0 < store.credentials
  | .starts _ | .passkeys _ => True

instance (store : IdentityStore) : ∀ action, Decidable (Unconfirmed store action)
  | .apply _ confirm _ => inferInstanceAs (Decidable (confirm = false ∧ 0 < store.credentials))
  | .flag _ _ => inferInstanceAs (Decidable (0 < store.credentials))
  | .starts _ | .passkeys _ => .isTrue trivial

theorem stepIdentity_sameRPID {store after : IdentityStore} {action : IdentityAction}
    (named : store.Named tables) (unconfirmed : Unconfirmed store action)
    (stepped : stepIdentity tables store action = some after) :
    SameRPID tables store after := by
  cases action with
  | apply changes confirm calls =>
    obtain ⟨rfl, registered⟩ := unconfirmed
    cases stepped
    exact apply_sameRPID named registered
  | flag host calls =>
    cases stepped
    rw [applyHostname_snd]
    exact apply_sameRPID named unconfirmed
  | starts calls =>
    cases stepped
    exact hostnames_sameRPID named
  | passkeys count =>
    cases stepped
    exact named.sameRPID rfl

/-- Over any stretch of starts and unconfirmed changes the RP ID stays. -/
theorem sameRPID_run {store after : IdentityStore} {actions : List IdentityAction}
    (named : store.Named tables)
    (run : Run (stepIdentity tables) Unconfirmed store actions after) :
    SameRPID tables store after := by
  refine run.invariant (SameRPID tables store) (named.sameRPID rfl)
    fun middle action next sofar unconfirmed stepped => ?_
  have here := stepIdentity_sameRPID sofar.named unconfirmed stepped
  exact ⟨here.named, here.same.trans sofar.same⟩

/-- An `Apply` that succeeded succeeds again, with the changes in any order: it reports no change
of the RP ID and writes what is there. -/
theorem apply_again {changes again : IdentityChanges} {confirm confirmAgain changed : Bool}
    {calls : ApplyCalls} {store after : IdentityStore}
    (applied : apply tables changes confirm calls store = (.ok changed, after))
    (same : changes.entries.Perm again.entries) :
    apply tables again confirmAgain .working after = (.ok false, after) := by
  obtain ⟨validated, valid, -, rfl⟩ := apply_ok applied
  obtain ⟨others, validAgain, perm⟩ := validateChanges_perm same valid
  have keys : (validated.map Prod.fst).Nodup := validateChanges_keys valid ▸ changes.keys
  have keysAgain : (others.map Prod.fst).Nodup := (perm.map Prod.fst).nodup keys
  have guarded : rpChanged tables others confirmAgain .working (store.write validated) =
      .ok false := by
    cases named : others.lookup "hostname" with
    | none => simp [rpChanged, named]
    | some host =>
      -- The hostname that is there is the one that the changes ask for.
      have member := perm.mem_iff.mpr ((lookup_eq_some_iff_mem keysAgain).mp named)
      have stored : (store.write validated).hostname = host :=
        IdentityStore.hostname_write keys member
      simp [rpChanged, named, ApplyCalls.working, stored]
  have settled : (store.write validated).write others = store.write validated := by
    show IdentityStore.mk ((store.settings.setAll validated).setAll others) _ = _
    rw [Settings.setAll_perm keys perm]
    rfl
  simp only [apply, validAgain, guarded]
  rw [settled]
  rfl

end Laws

/-- A failed `Apply` writes nothing; over any stretch of starts and of changes that are not
confirmed and meet a passkey, the RP ID of a valid hostname stays; and an `Apply` that succeeded
may be repeated, which changes nothing more. -/
theorem rp_id_stable (tables : TextTables) :
    (∀ changes confirm calls store error after,
      apply tables changes confirm calls store = (.error error, after) → after = store) ∧
    (∀ store actions after, Run (stepIdentity tables) Unconfirmed store actions after →
      ValidName tables (canonicalHost tables store.hostname) →
        rpIDForHost tables after.hostname = rpIDForHost tables store.hostname) ∧
    (∀ changes again confirm confirmAgain calls store changed after,
      apply tables changes confirm calls store = (.ok changed, after) →
      changes.entries.Perm again.entries →
        apply tables again confirmAgain .working after = (.ok false, after)) := by
  refine ⟨?_, ?_, ?_⟩
  · intro changes confirm calls store error after applied
    exact apply_error applied
  · intro store actions after run named
    exact (sameRPID_run named run).same
  · intro changes again confirm confirmAgain calls store changed after applied same
    exact apply_again applied same

/-- A hostname stored before names were folded, and one passkey. -/
def unfoldedStore : IdentityStore where
  settings := fun key => if key = "hostname" then some "Mac-Pro.Local".toList else none
  credentials := 1

/-- A start, a change that the guard refuses, one that it allows, and a start that fails. -/
def editedIdentity : List IdentityAction :=
  [.starts ⟨.ok, .error "no name", .ok, .ok, .ok⟩,
    .apply (hostnameChange "other.example".toList) false .working,
    .flag " MAC-PRO.local. ".toList .working,
    .starts ⟨.ok, .ok [], .fails "busy", .fails "busy", .ok⟩]

theorem edited_identity_stable :
    ∃ after, exec (stepIdentity asciiTables) unfoldedStore editedIdentity = some after ∧
      after.hostname = "mac-pro.local".toList ∧
      rpIDForHost asciiTables after.hostname = rpIDForHost asciiTables unfoldedStore.hostname := by
  refine ⟨_, rfl, by decide, ?_⟩
  have run : Run (stepIdentity asciiTables) Unconfirmed unfoldedStore editedIdentity _ :=
    Run.of_exec rfl (by decide)
  exact (rp_id_stable asciiTables).2.1 _ _ _ run (by decide)

end Multimux
