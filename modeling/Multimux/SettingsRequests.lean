/-
This file models the requests that change settings, one statement of the store
at a time. The identity and the orders are written in one transaction each, and
the preferences in one statement; the appearance is written in two statements
of their own, in the order of an iteration over a map. So it is the one request
that can fail with something written.
-/

import Multimux.Identity
import Multimux.OrderedRows

namespace Multimux

/-! ### The store -/

/-- The statements of the requests; no request makes one of them twice. -/
inductive StoreStatement
  | getSetting (key : String)
  | countCredentials
  | setSetting (key : String)
  | beginTx
  | selectIDs
  | exec (index : Nat)
  | commit

/-- Which statements fail in a request, and the order in which it iterates over a map. -/
structure StoreSurroundings where
  fails : StoreStatement → Option String
  iterate : List (String × List Char) → List (String × List Char)
  permutes : ∀ entries, (iterate entries).Perm entries

/-- What the requests write. -/
structure SettingsWorld where
  identity : IdentityStore
  tools : OrderedTable Tool
  dirs : OrderedTable DirRow

/-- The outcome of statements of which each waits for the one before. -/
def StoreSurroundings.outcome (env : StoreSurroundings) (statements : List StoreStatement) :
    Outcome :=
  match statements.findSome? env.fails with
  | none => .ok
  | some error => .fails error

/-- The statements behind the first of a transaction, up to its commit. -/
def execsAndCommit (count : Nat) : List StoreStatement :=
  (List.range count).map .exec ++ [.commit]

/-- What a reorder fails with. -/
inductive ReorderError
  | mismatch (cause : OrderMismatch)
  | failed (error : String)

/-- The text of the error. -/
def ReorderError.message : ReorderError → String
  | .mismatch cause => cause.message
  | .failed error => error

/-- `reorder` of the store, a transaction. -/
def reorderTable {Fields Entry : Type*} (kind : OrderedKind Fields Entry)
    (env : StoreSurroundings) (table : OrderedTable Entry) (ids : List Int) :
    OrderedTable Entry × Except ReorderError Unit :=
  match env.outcome [.beginTx, .selectIDs] with
  | .fails error => (table, .error (.failed error))
  | .ok =>
    match reorder kind table ids with
    | (_, .error mismatch) => (table, .error (.mismatch mismatch))
    | (written, .ok ()) =>
      match env.outcome (execsAndCommit ids.length) with
      | .fails error => (table, .error (.failed error))
      | .ok => (written, .ok ())

/-- `SetSetting`, one statement. -/
def Settings.setSetting (settings : Settings) (env : StoreSurroundings) (key : String)
    (value : List Char) : Settings × Outcome :=
  match env.outcome [.setSetting key] with
  | .fails error => (settings, .fails error)
  | .ok => (settings.set key value, .ok)

/-! ### The handlers -/

/-- The answers, of which an error and a question for a confirmation refuse the request. -/
inductive SettingsAnswer
  | error (status : Nat) (error : String)
  | rpChange (error : String) (credentials : Nat)
  | restartRequired (rpWarning : Bool)
  | stored
  | preferences (confirmTerminate : Bool)
  | noContent

/-- The status of an answer. -/
def SettingsAnswer.status : SettingsAnswer → Nat
  | error status _ => status
  | rpChange _ _ => 409
  | restartRequired _ | stored | preferences _ => 200
  | noContent => 204

/-- The body of a change of the settings. -/
structure SettingsBody where
  hostname : List Char
  extraSans : List Char
  port : List Char
  confirmRpChange : Bool

/-- The three changes of a body. -/
def SettingsBody.entries (body : SettingsBody) : List (String × List Char) :=
  [("hostname", body.hostname), ("extra_sans", body.extraSans), ("port", body.port)]

/-- The changes of a body, in the order of the map's iteration. -/
def SettingsBody.changes (body : SettingsBody) (env : StoreSurroundings) : IdentityChanges where
  entries := env.iterate body.entries
  keys := by
    have keys : ["hostname", "extra_sans", "port"].Nodup := by decide
    exact ((env.permutes body.entries).map Prod.fst).nodup_iff.mpr keys

/-- `Apply` finds out about a transaction of one write for each change. -/
def identityCalls (env : StoreSurroundings) : ApplyCalls where
  getSetting := env.outcome [.getSetting "hostname"]
  countCredentials := env.outcome [.countCredentials]
  setSettings := env.outcome (.beginTx :: execsAndCommit 3)

/-- `handlePutSettings`. -/
def handlePutSettings (tables : TextTables) (env : StoreSurroundings) (world : SettingsWorld) :
    Option SettingsBody → SettingsWorld × SettingsAnswer
  | none => (world, .error 400 "bad body")
  | some body =>
    match apply tables (body.changes env) body.confirmRpChange (identityCalls env)
        world.identity with
    | (.error (.rpChange prev next credentials), identity) =>
      ({ world with identity },
        .rpChange ((ApplyError.rpChange prev next credentials).error tables) credentials)
    | (.error (.failed error), identity) => ({ world with identity }, .error 400 error)
    | (.ok changed, identity) => ({ world with identity }, .restartRequired changed)

/-- A digit of base sixteen, in either case. -/
def isHexDigit (letter : Char) : Bool :=
  letter.isDigit || 'a' ≤ letter && letter ≤ 'f' || 'A' ≤ letter && letter ≤ 'F'

/-- The colors that `accentColorRe` matches. -/
def isAccentColor : List Char → Bool
  | '#' :: digits => digits.length = 6 && digits.all isHexDigit
  | _ => false

/-- The body of a change of the appearance. -/
structure AppearanceBody where
  hostLabel : List Char
  accentColor : List Char

/-- The checks of the body, in the order of the source. -/
def AppearanceBody.check (body : AppearanceBody) : Except String Unit :=
  if 64 < byteLength body.hostLabel then .error "hostLabel must be 64 characters or fewer"
  else if body.accentColor ≠ [] ∧ ¬ isAccentColor body.accentColor then
    .error "accentColor must be #rrggbb"
  else .ok ()

/-- The settings that the body names. -/
def AppearanceBody.entries (body : AppearanceBody) : List (String × List Char) :=
  [("host_label", body.hostLabel), ("accent_color", body.accentColor)]

/-- The writes one after the other, up to the first that fails. -/
def setEach (env : StoreSurroundings) (settings : Settings) :
    List (String × List Char) → Settings × Outcome
  | [] => (settings, .ok)
  | (key, value) :: rest =>
    match settings.setSetting env key value with
    | (settings, .fails error) => (settings, .fails error)
    | (settings, .ok) => setEach env settings rest

/-- The world with other settings. -/
def SettingsWorld.store (world : SettingsWorld) (settings : Settings) : SettingsWorld :=
  { world with identity := { world.identity with settings } }

/-- `handlePutAppearance`. -/
def handlePutAppearance (env : StoreSurroundings) (world : SettingsWorld) :
    Option AppearanceBody → SettingsWorld × SettingsAnswer
  | none => (world, .error 400 "bad body")
  | some body =>
    match body.check with
    | .error error => (world, .error 400 error)
    | .ok () =>
      match setEach env world.identity.settings (env.iterate body.entries) with
      | (settings, .fails error) => (world.store settings, .error 500 error)
      | (settings, .ok) => (world.store settings, .stored)

/-- The names of the settings that a user has; all of them are on or off. -/
def configKeys : List String := ["confirm-terminate"]

/-- The spelling of a name in the table. -/
def storeKey (name : String) : String :=
  name.map fun letter => if letter = '-' then '_' else letter

/-- The value as it is stored. -/
def normalizeConfig (tables : TextTables) (name : String) (raw : List Char) :
    Except String (List Char) :=
  if raw ≠ "true".toList ∧ raw ≠ "false".toList then
    .error (name ++ " takes true or false, got " ++ tables.quote raw)
  else .ok raw

/-- `Set` of the settings that a user has. -/
def configSet (tables : TextTables) (env : StoreSurroundings) (settings : Settings) (name : String)
    (value : List Char) : Settings × Outcome :=
  if name ∉ configKeys then
    (settings, .fails ("unknown setting " ++ tables.quote name.toList ++ " (known settings: " ++
      ", ".intercalate configKeys ++ ")"))
  else
    match normalizeConfig tables name value with
    | .error error => (settings, .fails error)
    | .ok value => settings.setSetting env (storeKey name) value

/-- `handlePutPreferences`. -/
def handlePutPreferences (tables : TextTables) (env : StoreSurroundings) (world : SettingsWorld) :
    Option Bool → SettingsWorld × SettingsAnswer
  | none => (world, .error 400 "bad body")
  | some confirmTerminate =>
    match configSet tables env world.identity.settings "confirm-terminate"
        (toString confirmTerminate).toList with
    | (settings, .fails error) => (world.store settings, .error 500 error)
    | (settings, .ok) => (world.store settings, .preferences confirmTerminate)

/-- The answer to a reorder; what does not fit the rows is a mistake of the client. -/
def reorderAnswer : Except ReorderError Unit → SettingsAnswer
  | .ok () => .noContent
  | .error (.mismatch mismatch) => .error 400 mismatch.message
  | .error (.failed error) => .error 500 error

/-- `handleReorderTools`. -/
def handleReorderTools (env : StoreSurroundings) (world : SettingsWorld) :
    Option (List Int) → SettingsWorld × SettingsAnswer
  | none => (world, .error 400 "ids required")
  | some ids =>
    let reordered := reorderTable toolKind env world.tools ids
    ({ world with tools := reordered.1 }, reorderAnswer reordered.2)

/-- `handleReorderDirs`. -/
def handleReorderDirs (env : StoreSurroundings) (world : SettingsWorld) :
    Option (List Int) → SettingsWorld × SettingsAnswer
  | none => (world, .error 400 "ids required")
  | some ids =>
    let reordered := reorderTable dirKind env world.dirs ids
    ({ world with dirs := reordered.1 }, reorderAnswer reordered.2)

/-- The requests that change settings; a body is missing when it does not parse. -/
inductive SettingsRequest
  | settings (body : Option SettingsBody)
  | appearance (body : Option AppearanceBody)
  | preferences (body : Option Bool)
  | reorderTools (body : Option (List Int))
  | reorderDirs (body : Option (List Int))

/-- The handler of a request. -/
def SettingsRequest.handle (tables : TextTables) (env : StoreSurroundings)
    (world : SettingsWorld) : SettingsRequest → SettingsWorld × SettingsAnswer
  | settings body => handlePutSettings tables env world body
  | appearance body => handlePutAppearance env world body
  | preferences body => handlePutPreferences tables env world body
  | reorderTools body => handleReorderTools env world body
  | reorderDirs body => handleReorderDirs env world body

/-! ### All or nothing -/

/-- A request that is refused has changed nothing. -/
def Atomic (world : SettingsWorld) (result : SettingsWorld × SettingsAnswer) : Prop :=
  400 ≤ result.2.status → result.1 = world

theorem atomic_unchanged (world : SettingsWorld) (answer : SettingsAnswer) :
    Atomic world (world, answer) := fun _ => rfl

theorem atomic_accepted {world : SettingsWorld} {result : SettingsWorld × SettingsAnswer}
    (accepted : result.2.status < 400) : Atomic world result :=
  fun refused => absurd accepted (Nat.not_lt_of_le refused)

/-- A request whose only write is one statement. -/
theorem setSetting_fails {settings after : Settings} {env : StoreSurroundings} {key error : String}
    {value : List Char} (written : settings.setSetting env key value = (after, .fails error)) :
    after = settings := by
  unfold Settings.setSetting at written
  split at written <;> cases written
  rfl

theorem handlePutSettings_atomic (tables : TextTables) (env : StoreSurroundings)
    (world : SettingsWorld) (body : Option SettingsBody) :
    Atomic world (handlePutSettings tables env world body) := by
  cases body with
  | none => exact atomic_unchanged _ _
  | some body =>
    simp only [handlePutSettings]
    split
    · rename_i applied
      rw [apply_error applied]
      exact atomic_unchanged _ _
    · rename_i applied
      rw [apply_error applied]
      exact atomic_unchanged _ _
    · exact atomic_accepted (show 200 < 400 by decide)

theorem handlePutPreferences_atomic (tables : TextTables) (env : StoreSurroundings)
    (world : SettingsWorld) (body : Option Bool) :
    Atomic world (handlePutPreferences tables env world body) := by
  cases body with
  | none => exact atomic_unchanged _ _
  | some confirmTerminate =>
    simp only [handlePutPreferences]
    split
    · rename_i settings error written
      have same : settings = world.identity.settings := by
        unfold configSet at written
        split at written
        · cases written
          rfl
        · split at written
          · cases written
            rfl
          · exact setSetting_fails written
      rw [same]
      exact atomic_unchanged _ _
    · exact atomic_accepted (show 200 < 400 by decide)

/-- A reorder that fails leaves the table as it was. -/
theorem reorderTable_error {Fields Entry : Type*} {kind : OrderedKind Fields Entry}
    {env : StoreSurroundings} {table : OrderedTable Entry} {ids : List Int} {error : ReorderError}
    (failed : (reorderTable kind env table ids).2 = .error error) :
    (reorderTable kind env table ids).1 = table := by
  unfold reorderTable at failed ⊢
  split
  · rfl
  · split
    · rfl
    · split
      · rfl
      · simp_all

/-- A reorder that is answered with an error leaves the table as it was. -/
theorem reorderTable_refused {Fields Entry : Type*} {kind : OrderedKind Fields Entry}
    {env : StoreSurroundings} {table : OrderedTable Entry} {ids : List Int}
    (refused : 400 ≤ (reorderAnswer (reorderTable kind env table ids).2).status) :
    (reorderTable kind env table ids).1 = table := by
  cases result : (reorderTable kind env table ids).2 with
  | error error => exact reorderTable_error result
  | ok =>
    rw [result] at refused
    exact absurd refused (show ¬ 400 ≤ 204 by decide)

theorem handleReorderTools_atomic (env : StoreSurroundings) (world : SettingsWorld)
    (body : Option (List Int)) : Atomic world (handleReorderTools env world body) := by
  cases body with
  | none => exact atomic_unchanged _ _
  | some ids =>
    intro refused
    show { world with tools := (reorderTable toolKind env world.tools ids).1 } = world
    rw [reorderTable_refused refused]

theorem handleReorderDirs_atomic (env : StoreSurroundings) (world : SettingsWorld)
    (body : Option (List Int)) : Atomic world (handleReorderDirs env world body) := by
  cases body with
  | none => exact atomic_unchanged _ _
  | some ids =>
    intro refused
    show { world with dirs := (reorderTable dirKind env world.dirs ids).1 } = world
    rw [reorderTable_refused refused]

/-! ### The appearance -/

/-- An accepted appearance of which the second write fails, after the first one has changed a
row. -/
def AppearanceBody.HalfApplies (body : AppearanceBody) (env : StoreSurroundings)
    (world : SettingsWorld) : Prop :=
  body.check = .ok () ∧ ∃ first second error, env.iterate body.entries = [first, second] ∧
    env.fails (.setSetting first.1) = none ∧ env.fails (.setSetting second.1) = some error ∧
    world.identity.settings first.1 ≠ some first.2

theorem setSetting_of_fails {env : StoreSurroundings} {key error : String}
    (fails : env.fails (.setSetting key) = some error) (settings : Settings) (value : List Char) :
    settings.setSetting env key value = (settings, .fails error) := by
  simp [Settings.setSetting, StoreSurroundings.outcome, fails]

theorem setSetting_of_works {env : StoreSurroundings} {key : String}
    (works : env.fails (.setSetting key) = none) (settings : Settings) (value : List Char) :
    settings.setSetting env key value = (settings.set key value, .ok) := by
  simp [Settings.setSetting, StoreSurroundings.outcome, works]

/-- Writing a value is nothing exactly if the value is there already. -/
theorem Settings.set_eq_self_iff {settings : Settings} {key : String} {value : List Char} :
    settings.set key value = settings ↔ settings key = some value := by
  rw [Settings.set, Function.update_eq_self_iff, eq_comm]

theorem SettingsWorld.store_eq_self_iff {world : SettingsWorld} {settings : Settings} :
    world.store settings = world ↔ settings = world.identity.settings := by
  constructor
  · intro same
    exact congrArg (fun world : SettingsWorld => world.identity.settings) same
  · rintro rfl
    rfl

theorem handlePutAppearance_atomic_iff (env : StoreSurroundings) (world : SettingsWorld)
    (body : AppearanceBody) :
    Atomic world (handlePutAppearance env world (some body)) ↔ ¬ body.HalfApplies env world := by
  have two : ∃ first second, env.iterate body.entries = [first, second] := by
    have length := (env.permutes body.entries).length_eq
    exact List.length_eq_two.mp length
  obtain ⟨⟨key, value⟩, ⟨other, content⟩, order⟩ := two
  cases valid : body.check with
  | error error =>
    simp only [handlePutAppearance, valid]
    refine iff_of_true (atomic_unchanged _ _) ?_
    rintro ⟨accepted, -⟩
    cases valid.symm.trans accepted
  | ok =>
    simp only [handlePutAppearance, valid, order, setEach]
    cases first : env.fails (.setSetting key) with
    | some error =>
      simp only [setSetting_of_fails first]
      refine iff_of_true (atomic_unchanged _ _) ?_
      rintro ⟨-, _, _, _, same, works, -⟩
      cases order.symm.trans same
      cases first.symm.trans works
    | none =>
      simp only [setSetting_of_works first]
      cases second : env.fails (.setSetting other) with
      | none =>
        simp only [setSetting_of_works second]
        refine iff_of_true (atomic_accepted (show 200 < 400 by decide)) ?_
        rintro ⟨-, _, _, _, same, -, fails, -⟩
        cases order.symm.trans same
        cases second.symm.trans fails
      | some error =>
        simp only [setSetting_of_fails second]
        have unwritten : body.HalfApplies env world ↔
            ¬ world.identity.settings key = some value := by
          constructor
          · rintro ⟨-, _, _, _, same, -, -, changes⟩
            cases order.symm.trans same
            exact changes
          · intro changes
            exact ⟨valid, _, _, error, order, first, second, changes⟩
        rw [unwritten, not_not, ← Settings.set_eq_self_iff, ← SettingsWorld.store_eq_self_iff]
        exact forall_prop_of_true (show 400 ≤ 500 by decide)

/-- A request for settings that is refused has changed nothing, except an appearance that was
applied by half. -/
theorem settingsRequest_atomic_iff (tables : TextTables) (env : StoreSurroundings)
    (world : SettingsWorld) (request : SettingsRequest) :
    (400 ≤ (request.handle tables env world).2.status →
        (request.handle tables env world).1 = world) ↔
      ¬ ∃ body, request = .appearance (some body) ∧ body.HalfApplies env world := by
  cases request with
  | settings body => exact iff_of_true (handlePutSettings_atomic tables env world body) (by simp)
  | preferences body =>
    exact iff_of_true (handlePutPreferences_atomic tables env world body) (by simp)
  | reorderTools body => exact iff_of_true (handleReorderTools_atomic env world body) (by simp)
  | reorderDirs body => exact iff_of_true (handleReorderDirs_atomic env world body) (by simp)
  | appearance body =>
    cases body with
    | none => exact iff_of_true (atomic_unchanged world _) (by simp)
    | some body =>
      refine (handlePutAppearance_atomic_iff env world body).trans (not_congr ?_)
      simp

/-- The write of the color fails, after the one of the label. -/
def colorWriteFails : StoreSurroundings where
  fails
    | .setSetting key => if key = "accent_color" then some "disk I/O error" else none
    | _ => none
  iterate := id
  permutes entries := .refl entries

/-- The label is changed by a request that is answered with an error. -/
theorem label_lands_alone :
    ¬ ∀ (tables : TextTables) (env : StoreSurroundings) (world : SettingsWorld)
        (request : SettingsRequest), 400 ≤ (request.handle tables env world).2.status →
        (request.handle tables env world).1 = world := by
  intro always
  let empty : SettingsWorld := ⟨⟨fun _ => none, 0⟩, emptyTable, emptyTable⟩
  let body : AppearanceBody := ⟨"a".toList, "#112233".toList⟩
  have atomic : Atomic empty (handlePutAppearance colorWriteFails empty (some body)) :=
    always asciiTables colorWriteFails empty (.appearance (some body))
  refine (handlePutAppearance_atomic_iff colorWriteFails empty body).mp atomic ?_
  refine ⟨by decide, ("host_label", _), ("accent_color", _), "disk I/O error", rfl, ?_, ?_, ?_⟩
  · simp [colorWriteFails]
  · simp [colorWriteFails]
  · simp [empty]

end Multimux
