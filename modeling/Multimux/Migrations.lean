/-
This file models how a store is opened: the migrations as what their SQL
statements do to the tables, and `Open` as the version it reads and the
migrations it applies from there, each with its version bump in one
transaction. Any number of processes open the database at once, any of them
may fail or stop anywhere, and rows are written in between. The schema and the
version stay in step: a migration that changes the schema fails on every
database that has it already, so it takes effect once.
-/

import Multimux.Interleaving
import Mathlib.Logic.Function.Basic

namespace Multimux

/-! ### Tables and statements -/

/-- The tables of the database. -/
inductive TableName
  | settings
  | tools
  | dirs
  | sessions
  | layout
  | credentials
  | authSessions
  | dirSubdirs
  deriving DecidableEq

/-- The columns of all tables. -/
inductive ColumnName
  | key
  | value
  | id
  | name
  | command
  | path
  | tmuxName
  | toolID
  | dir
  | status
  | createdAt
  | data
  | lastUsedAt
  | tokenHash
  | userAgent
  | expiresAt
  | position
  | label
  | dirID
  | subdir
  | usedAt
  deriving DecidableEq

/-- A value in a row. -/
inductive SqlValue
  | null
  | integer (value : Int)
  | text (value : List Char)
  | blob (value : List UInt8)
  deriving DecidableEq

/-- A row by its columns; those of other tables do not matter. -/
abbrev SqlRow := ColumnName → SqlValue

/-- A table that was created. -/
structure SqlTable where
  columns : List ColumnName
  rows : List SqlRow

/-- The tables that were created. -/
abbrev SqlTables := TableName → Option SqlTable

/-- A statement of a migration. An update names the columns that its value and its condition
read. -/
inductive Statement
  | createTable (table : TableName) (columns : List ColumnName)
  | addColumn (table : TableName) (column : ColumnName) (fallback : SqlValue)
  | update (table : TableName) (column : ColumnName) (reads : List ColumnName)
    (value : SqlRow → SqlValue) (selects : SqlRow → Bool)

/-- What a statement does to the tables; an error leaves the transaction to be rolled back. -/
def Statement.exec (tables : SqlTables) : Statement → Option SqlTables
  | .createTable table columns =>
    match tables table with
    | some _ => none
    | none => some (Function.update tables table (some ⟨columns, []⟩))
  | .addColumn table column fallback =>
    match tables table with
    | none => none
    | some found =>
      if column ∈ found.columns then none
      else some (Function.update tables table (some
        ⟨found.columns ++ [column], found.rows.map fun row => Function.update row column fallback⟩))
  | .update table column reads value selects =>
    match tables table with
    | none => none
    | some found =>
      if (column :: reads).all (· ∈ found.columns) then
        some (Function.update tables table (some { found with
          rows := found.rows.map fun row =>
            if selects row then Function.update row column (value row) else row }))
      else none

/-! ### The migrations -/

/-- `substr(text, start)`, counted from one. -/
def substr (text : List Char) (start : Nat) : List Char := text.drop (start - 1)

/-- `instr(text, letter)`: where the letter first is, counted from one; zero without one. -/
def instr (text : List Char) (letter : Char) : Nat :=
  match text.idxOf? letter with
  | some index => index + 1
  | none => 0

/-- `text GLOB 'lead*'`. -/
def globLead (lead text : List Char) : Bool := lead.isPrefixOf text

/-- The condition of the last migration: a row that looks like the seed of the home directory. -/
def renamesHome (row : SqlRow) : Bool :=
  match row .name, row .path with
  | .text name, .text path =>
    name = "Home".toList &&
      (globLead "/Users/".toList path || globLead "/home/".toList path) &&
      instr (substr path (instr (substr path 2) '/' + 2)) '/' = 0
  | _, _ => false

/-- The migrations, in order. -/
def migrations : List (List Statement) :=
  [[.createTable .settings [.key, .value]],
    [.createTable .tools [.id, .name, .command], .createTable .dirs [.id, .name, .path]],
    [.createTable .sessions [.id, .tmuxName, .toolID, .dir, .status, .createdAt],
      .createTable .layout [.id, .data]],
    [.createTable .credentials [.id, .name, .data, .createdAt, .lastUsedAt],
      .createTable .authSessions [.tokenHash, .userAgent, .createdAt, .expiresAt]],
    [.addColumn .tools .position (.integer 0), .addColumn .dirs .position (.integer 0),
      .update .tools .position [.id] (· .id) fun _ => true,
      .update .dirs .position [.id] (· .id) fun _ => true],
    [.addColumn .sessions .label (.text [])],
    [.createTable .dirSubdirs [.dirID, .subdir, .usedAt]],
    [.update .dirs .name [.name, .path] (fun _ => .text ['~']) renamesHome]]

/-- The database with `PRAGMA user_version`. -/
structure Database where
  userVersion : Nat
  tables : SqlTables

/-- A database that no process has opened. -/
def emptyDatabase : Database := ⟨0, fun _ => none⟩

/-- The statements of a migration and the version bump, in one transaction. -/
def Database.applyMigration (db : Database) (i : Nat) : Option Database :=
  match migrations[i]? with
  | none => none
  | some statements =>
    (statements.foldlM Statement.exec db.tables).map fun tables => ⟨i + 1, tables⟩

/-! ### Opening -/

/-- What opening a database fails with. -/
inductive OpenError
  | unreadable
  | newer (version : Nat)
  | migration (number : Nat)
  deriving DecidableEq

/-- Where an `Open` stands in `migrate`. -/
inductive Opening
  | reading
  | migrating (i : Nat)
  | opened
  | failed (error : OpenError)
  | stopped
  deriving DecidableEq

/-- How a call of the driver ends; the process may also stop before it does. -/
inductive DriverOutcome
  | ok
  | fails
  | stops

/-- The next call of `migrate`: it reads the version, applies one migration or is done. -/
def migrate (db : Database) : Opening → DriverOutcome → Option (Database × Opening)
  | .reading, .ok =>
    if migrations.length < db.userVersion then some (db, .failed (.newer db.userVersion))
    else some (db, .migrating db.userVersion)
  | .reading, .fails => some (db, .failed .unreadable)
  | .reading, .stops => some (db, .stopped)
  | .migrating i, .ok =>
    if i < migrations.length then
      match db.applyMigration i with
      | some next => some (next, .migrating (i + 1))
      | none => some (db, .failed (.migration (i + 1)))
    else some (db, .opened)
  | .migrating i, .fails =>
    if i < migrations.length then some (db, .failed (.migration (i + 1))) else none
  | .migrating _, .stops => some (db, .stopped)
  | _, _ => none

/-- The rows of a table are replaced; a table that is not there cannot be written. -/
def Database.write (db : Database) (table : TableName) (rows : List SqlRow) : Option Database :=
  (db.tables table).map fun found =>
    { db with tables := Function.update db.tables table (some { found with rows }) }

/-- Concurrent opens of a database whose rows are written in between. -/
def migrationMachine :
    Machine Database Unit Opening DriverOutcome (TableName × List SqlRow) where
  enter _ := .reading
  step := migrate
  outside db write := db.write write.1 write.2

/-! ### Schemas -/

/-- The columns of the tables there are. -/
abbrev SqlSchema := TableName → Option (List ColumnName)

/-- The schema without the rows. -/
def schemaOf (tables : SqlTables) : SqlSchema := fun table => (tables table).map SqlTable.columns

/-- What a statement does to the schema; whether it fails depends on nothing else. -/
def Statement.execSchema (schema : SqlSchema) : Statement → Option SqlSchema
  | .createTable table columns =>
    match schema table with
    | some _ => none
    | none => some (Function.update schema table (some columns))
  | .addColumn table column _ =>
    match schema table with
    | none => none
    | some columns =>
      if column ∈ columns then none
      else some (Function.update schema table (some (columns ++ [column])))
  | .update table column reads _ _ =>
    match schema table with
    | none => none
    | some columns => if (column :: reads).all (· ∈ columns) then some schema else none

/-- The schema of a version. -/
def schemaAt (version : Nat) : Option SqlSchema :=
  (migrations.take version).foldlM (fun schema statements =>
    statements.foldlM Statement.execSchema schema) fun _ => none

theorem schemaOf_update (tables : SqlTables) (table : TableName) (found : SqlTable) :
    schemaOf (Function.update tables table (some found)) =
      Function.update (schemaOf tables) table (some found.columns) := by
  funext other
  unfold schemaOf
  by_cases same : other = table
  · subst same
    simp
  · simp [Function.update_of_ne same]

/-- A statement fails by the schema alone, and leads to the schema that the schema says. -/
theorem Statement.execSchema_eq (tables : SqlTables) (statement : Statement) :
    statement.execSchema (schemaOf tables) = (statement.exec tables).map schemaOf := by
  cases statement with
  | createTable table columns =>
    cases found : tables table <;>
      simp [execSchema, exec, schemaOf, found, ← schemaOf_update tables table ⟨columns, []⟩]
  | addColumn table column fallback =>
    cases found : tables table with
    | none => simp [execSchema, exec, schemaOf, found]
    | some held =>
      have kept : (schemaOf tables) table = some held.columns := by simp [schemaOf, found]
      by_cases there : column ∈ held.columns
      · simp [execSchema, exec, kept, found, there]
      · simp [execSchema, exec, kept, found, there, schemaOf_update]
  | update table column reads value selects =>
    cases found : tables table with
    | none => simp [execSchema, exec, schemaOf, found]
    | some held =>
      have kept : (schemaOf tables) table = some held.columns := by simp [schemaOf, found]
      simp only [execSchema, exec, kept, found]
      split
      · rw [Option.map_some, schemaOf_update, ← kept, Function.update_eq_self]
      · rfl

theorem execSchemas_eq (statements : List Statement) (tables : SqlTables) :
    statements.foldlM Statement.execSchema (schemaOf tables) =
      (statements.foldlM Statement.exec tables).map schemaOf := by
  induction statements generalizing tables with
  | nil => rfl
  | cons statement rest inductionHypothesis =>
    rw [List.foldlM_cons, List.foldlM_cons, statement.execSchema_eq]
    cases statement.exec tables with
    | none => rfl
    | some next => exact inductionHypothesis next

/-- An update leaves the schema. -/
theorem Statement.execSchema_update {schema after : SqlSchema} {table : TableName}
    {column : ColumnName} {reads : List ColumnName} {value : SqlRow → SqlValue}
    {selects : SqlRow → Bool}
    (done : (Statement.update table column reads value selects).execSchema schema = some after) :
    after = schema := by
  simp only [execSchema] at done
  split at done
  · cases done
  · split at done
    · exact (Option.some.inj done).symm
    · cases done

theorem schemaAt_succ {version : Nat} {statements : List Statement}
    (there : migrations[version]? = some statements) :
    schemaAt (version + 1) =
      (schemaAt version).bind fun schema => statements.foldlM Statement.execSchema schema := by
  unfold schemaAt
  rw [List.take_add_one, there, Option.toList_some, List.foldlM_append]
  cases (migrations.take version).foldlM (fun schema statements =>
    statements.foldlM Statement.execSchema schema) fun _ => none with
  | none => rfl
  | some schema =>
    change (statements.foldlM Statement.execSchema schema).bind some =
      statements.foldlM Statement.execSchema schema
    exact Option.bind_fun_some _

/-- Every version has a schema. -/
theorem schemaAt_isSome {version : Nat} (known : version ≤ migrations.length) :
    (schemaAt version).isSome = true := by
  have each : ∀ number ∈ List.range 9, (schemaAt number).isSome = true := by decide
  exact each version (List.mem_range.mpr (Nat.lt_succ_of_le known))

/-- A migration fails on every later version than its own, but for the last one. -/
theorem stale_fails {version i : Nat} {schema : SqlSchema} {statements : List Statement}
    (known : version ≤ migrations.length) (stale : i < version)
    (early : i + 1 < migrations.length) (at_version : schemaAt version = some schema)
    (there : migrations[i]? = some statements) :
    statements.foldlM Statement.execSchema schema = none := by
  have each : ∀ number ∈ List.range 9, ∀ old ∈ List.range 7, old < number →
      ((schemaAt number).bind fun schema => ((migrations[old]?).bind fun statements =>
        statements.foldlM Statement.execSchema schema)).isNone = true := by decide
  have failed := each version (List.mem_range.mpr (Nat.lt_succ_of_le known)) i
    (List.mem_range.mpr (Nat.lt_of_succ_lt_succ early)) stale
  rw [at_version, there] at failed
  exact Option.isNone_iff_eq_none.mp failed

/-! ### One migration -/

namespace Database

variable {db next : Database} {i : Nat}

/-- The schema is that of the version, which this program knows. -/
structure Migrated (db : Database) : Prop where
  known : db.userVersion ≤ migrations.length
  schema : schemaAt db.userVersion = some (schemaOf db.tables)

theorem migrated_emptyDatabase : emptyDatabase.Migrated := ⟨Nat.zero_le _, rfl⟩

theorem applyMigration_userVersion (done : db.applyMigration i = some next) :
    next.userVersion = i + 1 := by
  unfold Database.applyMigration at done
  split at done
  · cases done
  · obtain ⟨tables, -, rfl⟩ := Option.map_eq_some_iff.mp done
    rfl

/-- The next migration of a database succeeds. -/
theorem Migrated.applyMigration (migrated : db.Migrated)
    (due : db.userVersion < migrations.length) :
    ∃ next, db.applyMigration db.userVersion = some next ∧ next.Migrated ∧
      next.userVersion = db.userVersion + 1 := by
  have there := List.getElem?_eq_getElem due
  have step := schemaAt_succ there
  rw [migrated.schema, Option.bind_some, execSchemas_eq] at step
  obtain ⟨schema, reached⟩ := Option.isSome_iff_exists.mp (schemaAt_isSome (Nat.succ_le_of_lt due))
  rw [Nat.succ_eq_add_one, step] at reached
  obtain ⟨tables, done, rfl⟩ := Option.map_eq_some_iff.mp reached
  refine ⟨⟨db.userVersion + 1, tables⟩, ?_, ⟨Nat.succ_le_of_lt due, ?_⟩, rfl⟩
  · unfold Database.applyMigration
    rw [there]
    simp only [done, Option.map_some]
  · change schemaAt (db.userVersion + 1) = some (schemaOf tables)
    rw [step, done]
    rfl

/-- A migration that succeeds on a database that is past it is the last one. -/
theorem Migrated.stale (migrated : db.Migrated) (stale : i < db.userVersion)
    (done : db.applyMigration i = some next) :
    db.userVersion = migrations.length ∧ i + 1 = migrations.length ∧ next.Migrated ∧
      next.userVersion = db.userVersion := by
  unfold Database.applyMigration at done
  split at done
  · cases done
  · rename_i statements there
    obtain ⟨tables, ran, rfl⟩ := Option.map_eq_some_iff.mp done
    have inside := (List.getElem?_eq_some_iff.mp there).1
    have followed := execSchemas_eq statements db.tables
    rw [ran] at followed
    by_cases early : i + 1 < migrations.length
    · rw [stale_fails migrated.known stale early migrated.schema there] at followed
      cases followed
    · have last : i + 1 = migrations.length := Nat.le_antisymm inside (Nat.le_of_not_lt early)
      have version : db.userVersion = migrations.length :=
        Nat.le_antisymm migrated.known (last ▸ stale)
      refine ⟨version, last, ⟨Nat.le_of_eq last, ?_⟩, last.trans version.symm⟩
      obtain rfl : i = 7 := Nat.succ.inj last
      cases there
      have kept : schemaOf tables = schemaOf db.tables := by
        rw [List.foldlM_cons] at followed
        obtain ⟨schema, updated, same⟩ := Option.bind_eq_some_iff.mp followed
        cases same
        exact Statement.execSchema_update updated
      have before := migrated.schema
      rw [version] at before
      rw [kept]
      exact before

/-- Rows that are written leave the schema. -/
theorem Migrated.write (migrated : db.Migrated) {table : TableName} {rows : List SqlRow}
    (written : db.write table rows = some next) :
    next.Migrated ∧ next.userVersion = db.userVersion := by
  obtain ⟨found, there, rfl⟩ := Option.map_eq_some_iff.mp written
  refine ⟨⟨migrated.known, ?_⟩, rfl⟩
  have kept : schemaOf db.tables table = some found.columns := by simp [schemaOf, there]
  change schemaAt db.userVersion =
    some (schemaOf (Function.update db.tables table (some { found with rows })))
  rw [schemaOf_update, ← kept, Function.update_eq_self]
  exact migrated.schema

end Database

/-! ### Opening, by any number of processes -/

/-- What an `Open` relies on where it stands: it never is ahead of the database, and is done only
with the last version. -/
def migrationOutline : Outline Database Opening where
  shared := Database.Migrated
  here db
    | .migrating i => i ≤ db.userVersion
    | .opened => db.userVersion = migrations.length
    | _ => True
  apart _ _ := True

/-- What one call of `migrate` does to the database: nothing, the migration that is due, or the
last one again. -/
theorem migrate_cases {db next : Database} {proc after : Opening} {outcome : DriverOutcome}
    (migrated : db.Migrated) (here : migrationOutline.here db proc)
    (called : migrate db proc outcome = some (next, after)) :
    (next = db ∧ migrationOutline.here db after) ∨
      (db.applyMigration db.userVersion = some next ∧
        proc = .migrating db.userVersion ∧ after = .migrating (db.userVersion + 1)) ∨
      db.userVersion = migrations.length ∧ proc = .migrating (migrations.length - 1) ∧
        db.applyMigration (migrations.length - 1) = some next ∧
        after = .migrating migrations.length := by
  cases proc with
  | reading =>
    cases outcome with
    | ok =>
      simp only [migrate] at called
      split at called <;> cases called
      · exact .inl ⟨rfl, trivial⟩
      · exact .inl ⟨rfl, Nat.le_refl _⟩
    | fails =>
      cases called
      exact .inl ⟨rfl, trivial⟩
    | stops =>
      cases called
      exact .inl ⟨rfl, trivial⟩
  | migrating i =>
    cases outcome with
    | ok =>
      simp only [migrate] at called
      split at called
      · rename_i inside
        split at called <;> cases called
        · rename_i done
          rcases Nat.lt_or_eq_of_le here with stale | rfl
          · obtain ⟨version, last, -, -⟩ := migrated.stale stale done
            obtain rfl : i = migrations.length - 1 := Nat.eq_sub_of_add_eq last
            exact .inr (.inr ⟨version, rfl, done, by rw [last]⟩)
          · exact .inr (.inl ⟨done, rfl, rfl⟩)
        · exact .inl ⟨rfl, trivial⟩
      · rename_i outside
        cases called
        exact .inl ⟨rfl, Nat.le_antisymm migrated.known
          (Nat.le_trans (Nat.le_of_not_lt outside) here)⟩
    | fails =>
      simp only [migrate] at called
      split at called
      · cases called
        exact .inl ⟨rfl, trivial⟩
      · cases called
    | stops =>
      cases called
      exact .inl ⟨rfl, trivial⟩
  | opened => cases outcome <;> cases called
  | failed error => cases outcome <;> cases called
  | stopped => cases outcome <;> cases called

theorem migrationOutline_run {start : Database} (migrated : start.Migrated)
    {final : Pool Database Opening}
    {moves : List (Move Unit DriverOutcome (TableName × List SqlRow))}
    (run : Run migrationMachine.next anything ⟨start, []⟩ moves final) :
    migrationOutline.Holds final := by
  have later : ∀ {db next : Database} {proc : Opening}, db.userVersion ≤ next.userVersion →
      next.Migrated → migrationOutline.here db proc → migrationOutline.here next proc := by
    intro db next proc grown after here
    cases proc with
    | migrating i => exact Nat.le_trans here grown
    | opened => exact Nat.le_antisymm after.known (here ▸ grown)
    | reading => exact trivial
    | failed error => exact trivial
    | stopped => exact trivial
  refine migrationOutline.holds_of_run ?_ ?_ ?_ (migrationOutline.holds_empty migrated) run
  · intro pool _ _ _
    exact ⟨trivial, fun _ _ => ⟨trivial, trivial⟩⟩
  · intro pool index outcome proc world after holds _ present called
    have here := holds.here index proc present
    have result : pool.world.userVersion ≤ world.userVersion ∧ world.Migrated ∧
        migrationOutline.here world after := by
      rcases migrate_cases holds.shared here called with ⟨rfl, stands⟩ | ⟨done, -, rfl⟩ |
        ⟨version, -, done, rfl⟩
      · exact ⟨Nat.le_refl _, holds.shared, stands⟩
      · by_cases due : pool.world.userVersion < migrations.length
        · obtain ⟨next, applied, still, grown⟩ := holds.shared.applyMigration due
          cases applied.symm.trans done
          exact ⟨grown ▸ Nat.le_succ _, still, Nat.le_of_eq grown.symm⟩
        · simp [Database.applyMigration, due] at done
      · have eight : migrations.length = 8 := rfl
        obtain ⟨-, -, still, same⟩ := holds.shared.stale (by omega) done
        exact ⟨Nat.le_of_eq same.symm, still, Nat.le_of_eq (version.symm.trans same.symm)⟩
    refine ⟨result.2.1, result.2.2, fun other others _ at_other => ?_⟩
    exact ⟨later result.1 result.2.1 (holds.here other others at_other), trivial, trivial⟩
  · intro pool event world holds _ written
    obtain ⟨still, same⟩ := holds.shared.write written
    refine ⟨still, fun index proc present => ?_, holds.apart⟩
    exact later (Nat.le_of_eq same.symm) still (holds.here index proc present)

/-- A call of the last process of a pool. -/
theorem advance_last {db next : Database} {procs : List Opening} {proc after : Opening}
    (called : migrate db proc .ok = some (next, after)) :
    migrationMachine.next ⟨db, procs ++ [proc]⟩ (.advance procs.length .ok) =
      some ⟨next, procs ++ [after]⟩ := by
  have called' : migrationMachine.step db proc .ok = some (next, after) := called
  simp [Machine.next, called']

/-- An `Open` that nothing disturbs applies what is due and is done. -/
theorem open_completes {db : Database} (migrated : db.Migrated) (procs : List Opening) :
    ∃ final, Run migrationMachine.next anything (⟨db, procs⟩ : Pool Database Opening)
        (.arrive () :: List.replicate (migrations.length - db.userVersion + 2)
          (.advance procs.length .ok)) final ∧
      final.procs[procs.length]? = some .opened ∧
      final.world.userVersion = migrations.length := by
  have applies : ∀ (count : Nat) (db : Database), db.Migrated →
      migrations.length = db.userVersion + count →
      ∃ final, Run migrationMachine.next anything
          (⟨db, procs ++ [.migrating db.userVersion]⟩ : Pool Database Opening)
          (List.replicate (count + 1) (.advance procs.length .ok)) final ∧
        final.procs[procs.length]? = some .opened ∧
        final.world.userVersion = migrations.length := by
    intro count
    induction count with
    | zero =>
      intro db _ left
      have called : migrate db (.migrating db.userVersion) .ok = some (db, .opened) := by
        simp only [migrate]
        rw [if_neg (by omega)]
      exact ⟨_, Run.nil.snoc trivial (advance_last called), by simp, left.symm⟩
    | succ count inductionHypothesis =>
      intro db migrated left
      obtain ⟨next, done, still, grown⟩ := migrated.applyMigration (by omega)
      have called : migrate db (.migrating db.userVersion) .ok =
          some (next, .migrating next.userVersion) := by
        simp only [migrate]
        rw [if_pos (by omega), done, grown]
      obtain ⟨final, run, opened, version⟩ := inductionHypothesis next still (by omega)
      exact ⟨final, (Run.nil.snoc trivial (advance_last called)).append run, opened, version⟩
  have arrived : migrationMachine.next ⟨db, procs⟩ (.arrive ()) =
      some ⟨db, procs ++ [.reading]⟩ := rfl
  have read : migrate db .reading .ok = some (db, .migrating db.userVersion) := by
    simp only [migrate]
    rw [if_neg (Nat.not_lt_of_le migrated.known)]
  obtain ⟨final, run, opened, version⟩ := applies (migrations.length - db.userVersion) db migrated
    (Nat.add_sub_of_le migrated.known).symm
  exact ⟨final, ((Run.nil.snoc trivial arrived).snoc trivial (advance_last read)).append run,
    opened,
    version⟩

/-- However many processes open a database, fail or stop anywhere, and whatever rows are written
in between: the schema is that of the version, which never goes back; an `Open` that is done
left the last one; a call changes the database only by the migration that is due, in order and
once, or by the last one again; and another `Open` completes. -/
theorem migrations_in_step {start : Database} (migrated : start.Migrated)
    {final : Pool Database Opening}
    {moves : List (Move Unit DriverOutcome (TableName × List SqlRow))}
    (run : Run migrationMachine.next anything ⟨start, []⟩ moves final) :
    final.world.Migrated ∧ start.userVersion ≤ final.world.userVersion ∧
      (.opened ∈ final.procs → final.world.userVersion = migrations.length) ∧
      (∀ index outcome next, migrationMachine.next final (.advance index outcome) = some next →
        next.world = final.world ∨
          final.world.applyMigration final.world.userVersion = some next.world ∧
            next.world.userVersion = final.world.userVersion + 1 ∨
          final.world.userVersion = migrations.length ∧
            final.world.applyMigration (migrations.length - 1) = some next.world) ∧
      ∃ completed, Run migrationMachine.next anything final
          (.arrive () :: List.replicate (migrations.length - final.world.userVersion + 2)
            (.advance final.procs.length .ok)) completed ∧
        completed.procs[final.procs.length]? = some .opened := by
  have holds := migrationOutline_run migrated run
  refine ⟨holds.shared, ?_, ?_, ?_, ?_⟩
  · refine run.history (fun _ pool => start.userVersion ≤ pool.world.userVersion)
      (Nat.le_refl _) ?_
    intro actions pool move next before grown _ taken
    have here := migrationOutline_run migrated before
    cases move with
    | arrive request =>
      cases taken
      exact grown
    | occur event =>
      obtain ⟨world, written, rfl⟩ := Machine.next_occur taken
      exact (here.shared.write written).2 ▸ grown
    | advance index outcome =>
      obtain ⟨proc, world, after, present, called, rfl⟩ := Machine.next_advance taken
      rcases migrate_cases here.shared (here.here index proc present) called with
        ⟨rfl, -⟩ | ⟨done, -, -⟩ | ⟨version, -, done, -⟩
      · exact grown
      · rw [Database.applyMigration_userVersion done]
        exact Nat.le_succ_of_le grown
      · have eight : migrations.length = 8 := rfl
        have last := Database.applyMigration_userVersion done
        simp only at grown ⊢
        omega
  · intro done
    obtain ⟨index, there⟩ := List.getElem?_of_mem done
    exact holds.here index .opened there
  · intro index outcome next taken
    obtain ⟨proc, world, after, present, called, rfl⟩ := Machine.next_advance taken
    rcases migrate_cases holds.shared (holds.here index proc present) called with
      ⟨rfl, -⟩ | ⟨done, -, -⟩ | ⟨version, -, done, -⟩
    · exact .inl rfl
    · exact .inr (.inl ⟨done, Database.applyMigration_userVersion done⟩)
    · exact .inr (.inr ⟨version, done⟩)
  · obtain ⟨completed, opened, there, -⟩ := open_completes holds.shared final.procs
    exact ⟨completed, opened, there⟩

/-- Two processes open a new database at once; one is stopped. -/
def twoOpens : List (Move Unit DriverOutcome (TableName × List SqlRow)) :=
  [.arrive (), .arrive (), .advance 0 .ok, .advance 1 .ok, .advance 0 .ok, .advance 1 .ok,
    .advance 0 .ok, .advance 0 .stops]

theorem migrations_in_step_twoOpens :
    ∃ final, exec migrationMachine.next ⟨emptyDatabase, []⟩ twoOpens = some final ∧
      final.procs = [.stopped, .failed (.migration 1)] ∧ final.world.Migrated := by
  obtain ⟨final, done, told⟩ := exists_of_exec migrationMachine.next ⟨emptyDatabase, []⟩ twoOpens
    (fun pool => pool.procs = [.stopped, .failed (.migration 1)]) rfl
  exact ⟨final, done, of_decide_eq_true told,
    (migrations_in_step Database.migrated_emptyDatabase (Run.of_exec_anything done)).1⟩

/-! ### The last migration -/

theorem instr_eq_zero_iff (text : List Char) (letter : Char) :
    instr text letter = 0 ↔ letter ∉ text := by
  unfold instr
  cases found : text.idxOf? letter with
  | none => simpa using List.idxOf?_eq_none_iff.mp found
  | some index =>
    have member : letter ∈ text := by
      by_contra missing
      rw [List.idxOf?_eq_none_iff.mpr missing] at found
      cases found
    simp [member]

theorem instr_append {lead : List Char} {letter : Char} (clear : letter ∉ lead)
    (rest : List Char) : instr (lead ++ letter :: rest) letter = lead.length + 1 := by
  have first : (lead ++ letter :: rest).idxOf? letter = some lead.length := by
    induction lead with
    | nil => simp [List.idxOf?_cons]
    | cons head tail inductionHypothesis =>
      have other : head ≠ letter := fun same => clear (same ▸ List.mem_cons_self)
      have later := inductionHypothesis fun member => clear (List.mem_cons_of_mem _ member)
      rw [List.cons_append, List.idxOf?_cons, later]
      simp [other]
  unfold instr
  rw [first]

/-- What the condition of the last migration looks at: the path behind its first name. -/
theorem substr_behind {dir : List Char} (clear : '/' ∉ dir) (rest : List Char) :
    substr ('/' :: (dir ++ '/' :: rest)) (instr (substr ('/' :: (dir ++ '/' :: rest)) 2) '/' + 2) =
      rest := by
  have second : substr ('/' :: (dir ++ '/' :: rest)) 2 = dir ++ '/' :: rest := rfl
  have count : dir.length + 1 + 2 - 1 = dir.length + 1 + 1 := rfl
  rw [second, instr_append clear, substr, count, List.drop_succ_cons]
  simp

/-- The row names the seed of a home directory: a user of `/Users` or `/home`, by the label the
seed once had. -/
def SeededHome (row : SqlRow) : Prop :=
  row .name = .text "Home".toList ∧ ∃ user : List Char, '/' ∉ user ∧
    (row .path = .text ("/Users/".toList ++ user) ∨ row .path = .text ("/home/".toList ++ user))

/-- The condition in SQL means what it is meant to. -/
theorem renamesHome_iff (row : SqlRow) : renamesHome row = true ↔ SeededHome row := by
  have users : ∀ rest : List Char,
      "/Users/".toList ++ rest = '/' :: ("Users".toList ++ '/' :: rest) := fun _ => rfl
  have home : ∀ rest : List Char,
      "/home/".toList ++ rest = '/' :: ("home".toList ++ '/' :: rest) := fun _ => rfl
  have clearUsers : '/' ∉ "Users".toList := by decide
  have clearHome : '/' ∉ "home".toList := by decide
  constructor
  · intro renamed
    unfold renamesHome at renamed
    split at renamed
    · rename_i name path named located
      simp only [Bool.and_eq_true, Bool.or_eq_true, decide_eq_true_eq, globLead,
        List.isPrefixOf_iff_prefix] at renamed
      obtain ⟨⟨rfl, led⟩, last⟩ := renamed
      refine ⟨named, ?_⟩
      rcases led with ⟨user, rfl⟩ | ⟨user, rfl⟩
      · rw [users, substr_behind clearUsers, instr_eq_zero_iff] at last
        exact ⟨user, last, .inl located⟩
      · rw [home, substr_behind clearHome, instr_eq_zero_iff] at last
        exact ⟨user, last, .inr located⟩
    · cases renamed
  · rintro ⟨named, user, clear, located⟩
    unfold renamesHome
    rcases located with located | located
    · rw [named, located]
      simp only [Bool.and_eq_true, Bool.or_eq_true, decide_eq_true_eq, globLead,
        List.isPrefixOf_iff_prefix]
      refine ⟨⟨trivial, .inl (List.prefix_append _ _)⟩, ?_⟩
      rw [users, substr_behind clearUsers, instr_eq_zero_iff]
      exact clear
    · rw [named, located]
      simp only [Bool.and_eq_true, Bool.or_eq_true, decide_eq_true_eq, globLead,
        List.isPrefixOf_iff_prefix]
      refine ⟨⟨trivial, .inr (List.prefix_append _ _)⟩, ?_⟩
      rw [home, substr_behind clearHome, instr_eq_zero_iff]
      exact clear

/-- The last migration gives the label `~` to exactly the directories that look like the seed,
and changes nothing else: no other column, row or table. -/
theorem last_migration_renames {db : Database} (migrated : db.Migrated)
    (due : db.userVersion + 1 = migrations.length) :
    ∃ next dirs after, db.applyMigration db.userVersion = some next ∧
      db.tables .dirs = some dirs ∧ next.tables .dirs = some after ∧
      (∀ table, table ≠ .dirs → next.tables table = db.tables table) ∧
      after.columns = dirs.columns ∧ after.rows.length = dirs.rows.length ∧
      ∀ (index : Nat) (row : SqlRow), dirs.rows[index]? = some row → ∃ renamed,
        after.rows[index]? = some renamed ∧
        (SeededHome row → renamed .name = .text ['~']) ∧
        (¬ SeededHome row → renamed .name = row .name) ∧
        ∀ column, column ≠ .name → renamed column = row column := by
  have version : db.userVersion = 7 := Nat.succ.inj due
  obtain ⟨next, done, -, -⟩ := migrated.applyMigration (by omega)
  have applied := done
  rw [version] at applied
  unfold Database.applyMigration at applied
  obtain ⟨tables, ran, rfl⟩ := Option.map_eq_some_iff.mp applied
  rw [List.foldlM_cons] at ran
  obtain ⟨after, updated, same⟩ := Option.bind_eq_some_iff.mp ran
  cases same
  simp only [Statement.exec] at updated
  split at updated
  · cases updated
  · rename_i dirs there
    split at updated
    · cases updated
      refine ⟨_, dirs, { dirs with
        rows := dirs.rows.map fun row =>
          if renamesHome row then Function.update row .name (.text ['~']) else row },
        done, there, by simp, ?_, rfl, List.length_map _, ?_⟩
      · intro table other
        exact Function.update_of_ne other _ _
      · intro index row at_index
        refine ⟨if renamesHome row then Function.update row .name (.text ['~']) else row, ?_, ?_⟩
        · simp only [List.getElem?_map, at_index, Option.map_some]
        by_cases seeded : SeededHome row
        · rw [if_pos ((renamesHome_iff row).mpr seeded)]
          refine ⟨fun _ => by simp, fun not => absurd seeded not, ?_⟩
          intro column other
          exact Function.update_of_ne other _ _
        · rw [if_neg fun renames => seeded ((renamesHome_iff row).mp renames)]
          exact ⟨fun yes => absurd yes seeded, fun _ => rfl, fun _ _ => rfl⟩
    · cases updated

/-- A process stops short of the last migration, and the seed is there. -/
def seededOpens : List (Move Unit DriverOutcome (TableName × List SqlRow)) :=
  .arrive () :: List.replicate 8 (.advance 0 .ok) ++
    [.occur (.dirs, [fun
      | .name => .text "Home".toList
      | .path => .text "/Users/ada".toList
      | _ => .null])]

theorem last_migration_renames_seeded :
    ∃ final, exec migrationMachine.next ⟨emptyDatabase, []⟩ seededOpens = some final ∧
      ∃ next dirs after row renamed, final.world.applyMigration 7 = some next ∧
        final.world.tables .dirs = some dirs ∧ next.tables .dirs = some after ∧
        dirs.rows[0]? = some row ∧ row .name = .text "Home".toList ∧
        after.rows[0]? = some renamed ∧ renamed .name = .text ['~'] ∧
        renamed .path = row .path := by
  obtain ⟨final, done, told⟩ := exists_of_exec migrationMachine.next ⟨emptyDatabase, []⟩
    seededOpens (fun pool => pool.world.userVersion = 7 &&
      (pool.world.tables .dirs).any fun dirs => dirs.rows[0]?.any fun row =>
        renamesHome row && row .name = .text "Home".toList) rfl
  rw [Bool.and_eq_true, decide_eq_true_eq] at told
  obtain ⟨version, seeds⟩ := told
  have migrated := (migrationOutline_run Database.migrated_emptyDatabase
    (Run.of_exec_anything done)).shared
  obtain ⟨next, dirs, after, applied, there, changed, -, -, -, each⟩ :=
    last_migration_renames migrated (by rw [version]; rfl)
  rw [there, Option.any_some] at seeds
  obtain ⟨row, first, seeded⟩ := Option.any_eq_true _ _ |>.mp seeds
  rw [Bool.and_eq_true, decide_eq_true_eq, renamesHome_iff] at seeded
  obtain ⟨renamed, listed, named, -, others⟩ := each 0 row first
  exact ⟨final, done, next, dirs, after, row, renamed, version ▸ applied, there, changed, first,
    seeded.2, listed, named seeded.1, others .path nofun⟩

end Multimux
