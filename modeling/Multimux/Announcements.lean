/-
This file adds the list and the rename to the session handlers and follows what
clients are told. A client refetches the list when it hears a session event, and
only then, so a change of a row that a list call returned has to be followed by
an event. Every handler that changes such a row goes on to broadcast one, but
for a launch that undoes itself: its rows can be listed before it deletes them,
and it deletes them in silence.
-/

import Multimux.Sessions

namespace Multimux

/-! ### Lists and renames -/

/-- What a client can hear. -/
inductive Announcement
  | handler (event : SessionEvent)
  | renamed (session : Session)

/-- What matters of the past: what a list call returned, the row that changed, and what was
broadcast. -/
inductive Happening
  | listed (sessions : List Session)
  | changed (id : Nat)
  | announced (announcement : Announcement)

/-- The world of the handlers. `log` is a history variable, newest first. -/
structure RowWorld where
  base : SessionWorld
  log : List Happening

/-- The rows that are gone from the second table, or have another status or label there. -/
def SessionTable.changed (before after : SessionTable) : List Nat :=
  (before.rows.filter fun row => ¬ after.rows.any fun other =>
    other.id = row.id ∧ other.status = row.status ∧ other.label = row.label).map SessionRow.id

/-- The world after a call of a handler, with what the call changed and broadcast on record. -/
def RowWorld.observe (world : RowWorld) (base : SessionWorld) : RowWorld where
  base
  log := (base.events.drop world.base.events.length).map (.announced ∘ .handler) ++
    ((world.base.table.changed base.table).map .changed ++ world.log)

/-- The longest label, counted in code points. -/
def maxSessionLabel : Nat := 64

/-- `unicode.IsControl`. -/
def isControl (letter : Char) : Bool :=
  letter.toNat < 0x20 || (0x7f ≤ letter.toNat && letter.toNat < 0xa0)

/-- Where a `handleRenameSession` request stands. -/
inductive RenameSession
  | writing (id : Int) (label : List Char)
  | reading (id : Int)
  | announcing (session : Session)
  | answered (response : Response)

/-- The checks of a rename, in the order the handler makes them. -/
def enterRename (id : Option Int) (label : Option (List Char)) : RenameSession :=
  match id, label with
  | none, _ => .answered ⟨400, some "bad id"⟩
  | some _, none => .answered ⟨400, some "bad body"⟩
  | some id, some label =>
    let label := trimSpace label
    if label.any isControl then
      .answered ⟨400, some "label must not contain control characters"⟩
    else if maxSessionLabel < label.length then
      .answered ⟨400, some ("label must be " ++ toString maxSessionLabel ++
        " characters or fewer")⟩
    else .writing id label

/-- `SetSessionLabel` under an id that a client sent. -/
def SessionTable.relabel (table : SessionTable) (id : Int) (label : List Char) :
    Option SessionTable :=
  if 0 ≤ id then table.setSessionLabel id.toNat label else none

/-- `handleRenameSession` behind its checks: it writes the label and announces it. -/
def handleRenameSession (world : RowWorld) :
    RenameSession → Outcome → Option (RowWorld × RenameSession)
  | .writing _ _, .fails error => some (world, .answered ⟨500, some error⟩)
  | .writing id label, .ok =>
    match world.base.table.relabel id label with
    | none => some (world, .answered ⟨404, some "not found"⟩)
    | some table => some (world.observe { world.base with table }, .reading id)
  | .reading _, .fails error => some (world, .answered ⟨500, some error⟩)
  | .reading id, .ok =>
    match world.base.table.getSession id with
    | none => some (world, .answered ⟨500, some "store: not found"⟩)
    | some session => some (world, .announcing session)
  | .announcing session, _ =>
    some ({ world with log := .announced (.renamed session) :: world.log },
      .answered ⟨200, none⟩)
  | .answered _, _ => none

/-- Where a `handleListSessions` request stands. -/
inductive ListSessions
  | reading
  | answered (sessions : Except String (List Session))

/-- `handleListSessions`, which answers with the rows as it read them. -/
def handleListSessions (world : RowWorld) :
    ListSessions → Outcome → Option (RowWorld × ListSessions)
  | .reading, .fails error => some (world, .answered (.error error))
  | .reading, .ok =>
    let sessions := world.base.table.listSessions
    some ({ world with log := .listed sessions :: world.log }, .answered (.ok sessions))
  | .answered _, _ => none

/-! ### The machine -/

/-- A request to the session handlers, or the tick of a pass. -/
inductive RowRequest
  | handler (request : SessionRequest)
  | rename (id : Option Int) (label : Option (List Char))
  | list

/-- A request under way. -/
inductive RowProc
  | handler (proc : SessionProc)
  | rename (proc : RenameSession)
  | list (proc : ListSessions)

/-- A request before its first call. -/
def enterRow : RowRequest → RowProc
  | .handler request => .handler (enterSession request)
  | .rename id label => .rename (enterRename id label)
  | .list => .list .reading

/-- The next call of a request. -/
def serveRow (world : RowWorld) : RowProc → Outcome → Option (RowWorld × RowProc)
  | .handler proc, outcome =>
    (serveSession world.base proc outcome).map (Prod.map world.observe .handler)
  | .rename proc, outcome => (handleRenameSession world proc outcome).map (Prod.map id .rename)
  | .list proc, outcome => (handleListSessions world proc outcome).map (Prod.map id .list)

/-- Concurrent requests and passes, with their past on record. -/
def rowMachine : Machine RowWorld RowRequest RowProc Outcome SessionOutside where
  enter := enterRow
  step := serveRow
  outside world event := (occurSession world.base event).map fun base => { world with base }

/-- A world before any request. -/
def SessionWorld.unwatched (world : SessionWorld) : Pool RowWorld RowProc where
  world := { base := world, log := [] }
  procs := []

/-! ### What must be announced -/

/-- The rows that a list call returned. -/
def Happening.returned : Happening → List Nat
  | .listed sessions => sessions.map Session.id
  | .changed _ | .announced _ => []

/-- A list call returned the row. -/
def Seen (log : List Happening) (id : Nat) : Prop := ∃ happening ∈ log, id ∈ happening.returned

instance (log : List Happening) (id : Nat) : Decidable (Seen log id) :=
  inferInstanceAs (Decidable (∃ happening ∈ log, id ∈ happening.returned))

/-- Every change of a row that a list call had returned was followed by an event. -/
def Announced (log : List Happening) : Prop :=
  ∀ later id earlier, log = later ++ .changed id :: earlier → Seen earlier id →
    ∃ announcement, .announced announcement ∈ later

/-- The request has its answer, the pass its end. -/
def RowProc.finished : RowProc → Bool
  | .handler (.create (.answered _)) | .handler (.kill (.answered _))
  | .handler (.dismiss (.answered _)) | .handler (.reconcile (.returned _ _))
  | .rename (.answered _) | .list (.answered _) => true
  | _ => false

/-- The row that a launch is about to delete, to pass over its name or to undo itself. -/
def CreateSession.deletes : CreateSession → Option Session
  | .skipping _ _ session | .dropping _ session _ | .deleting session _ _ => some session
  | _ => none

/-- A launch does not go to delete a row that a list call returned, and a rename reads the row
back that it wrote. -/
def RowProc.DeletesUnseen (log : List Happening) : RowProc → Outcome → Prop
  | .handler (.create proc), _ => ∀ session ∈ proc.deletes, ¬ Seen log session.id
  | .rename (.reading _), .fails _ => False
  | _, _ => True

instance (log : List Happening) : ∀ (proc : RowProc) (outcome : Outcome),
    Decidable (proc.DeletesUnseen log outcome)
  | .handler (.create proc), _ =>
    inferInstanceAs (Decidable (∀ session ∈ proc.deletes, ¬ Seen log session.id))
  | .rename (.reading _), .fails _ => .isFalse id
  | .rename (.reading _), .ok | .rename (.writing _ _), _ | .rename (.announcing _), _
  | .rename (.answered _), _ | .handler (.kill _), _ | .handler (.dismiss _), _
  | .handler (.reconcile _), _ | .list _, _ => .isTrue trivial

/-- Every row that the move deletes is in no list that was answered before. -/
def DeletesUnseen (pool : Pool RowWorld RowProc) : Move RowRequest Outcome SessionOutside → Prop
  | .advance index outcome =>
    ∀ proc ∈ pool.procs[index]?, proc.DeletesUnseen pool.world.log outcome
  | .arrive _ | .occur _ => True

instance (pool : Pool RowWorld RowProc) : ∀ move, Decidable (DeletesUnseen pool move)
  | .advance index outcome => inferInstanceAs
      (Decidable (∀ proc ∈ pool.procs[index]?, proc.DeletesUnseen pool.world.log outcome))
  | .arrive _ | .occur _ => .isTrue trivial

/-! ### Changes that wait for an event -/

/-- The row changed after a list call returned it, and no event followed. -/
def Unannounced (id : Nat) : List Happening → Prop
  | [] => False
  | .announced _ :: _ => False
  | .changed other :: earlier => other = id ∧ Seen earlier id ∨ Unannounced id earlier
  | .listed _ :: earlier => Unannounced id earlier

theorem Seen.mono (later : List Happening) {log : List Happening} {id : Nat} (seen : Seen log id) :
    Seen (later ++ log) id := by
  obtain ⟨happening, member, returned⟩ := seen
  exact ⟨happening, List.mem_append_right _ member, returned⟩

theorem Unannounced.seen {log : List Happening} {id : Nat} (waits : Unannounced id log) :
    Seen log id := by
  induction log with
  | nil => exact waits.elim
  | cons happening earlier inductionHypothesis =>
    have extend : Seen earlier id → Seen (happening :: earlier) id :=
      Seen.mono [happening]
    cases happening with
    | announced announcement => exact waits.elim
    | listed sessions => exact extend (inductionHypothesis waits)
    | changed other => exact extend (waits.elim And.right inductionHypothesis)

/-- Changes on top of a log wait if they changed a row seen before. -/
theorem Unannounced.of_changes {ids : List Nat} {log : List Happening} {id : Nat}
    (waits : Unannounced id (ids.map .changed ++ log)) :
    id ∈ ids ∧ Seen log id ∨ Unannounced id log := by
  induction ids with
  | nil => exact .inr waits
  | cons other rest inductionHypothesis =>
    rcases waits with ⟨rfl, happening, happened, returned⟩ | before
    · refine .inl ⟨List.mem_cons_self .., happening, ?_, returned⟩
      rcases List.mem_append.mp happened with change | old
      · obtain ⟨_, _, rfl⟩ := List.mem_map.mp change
        cases returned
      · exact old
    · exact (inductionHypothesis before).imp_left fun change =>
        ⟨List.mem_cons_of_mem _ change.1, change.2⟩

/-- With no change waiting, every change was announced. -/
theorem announced_of_none_waits {log : List Happening} (none : ∀ id, ¬ Unannounced id log) :
    Announced log := by
  rintro later id earlier rfl seen
  have waits : ∀ later, (∀ announcement, .announced announcement ∉ later) →
      Unannounced id (later ++ .changed id :: earlier) := by
    intro later silent
    induction later with
    | nil => exact .inl ⟨rfl, seen⟩
    | cons happening rest inductionHypothesis =>
      have before := inductionHypothesis fun announcement member =>
        silent announcement (List.mem_cons_of_mem _ member)
      cases happening with
      | announced announcement => exact absurd (List.mem_cons_self ..) (silent announcement)
      | listed sessions => exact before
      | changed other => exact .inr before
  by_contra silent
  exact none id (waits later fun announcement member => silent ⟨announcement, member⟩)

/-! ### Who owes the event -/

/-- The sessions that a launch will announce or delete. -/
def CreateSession.holds : CreateSession → List Session
  | .sampling launch _ | .inserting launch _ _ | .checking launch _ _ | .skipping launch _ _
  | .labelling launch _ _ => launch.created
  | .starting launch session | .dropping launch session _ => launch.created ++ [session]
  | .killing session rest _ | .deleting session rest _ => session :: rest
  | .recording created | .announcing created => created
  | .listingTools _ | .listingDirs _ _ | .answered _ => []

/-- The process goes on to announce the row's change; a rename does if the row is still there. -/
def RowProc.owes (table : SessionTable) (id : Nat) : RowProc → Prop
  | .handler (.create proc) => id ∈ proc.holds.map Session.id
  | .handler (.kill (.announcing session)) | .handler (.dismiss (.announcing session))
  | .handler (.reconcile (.announcing session _ _)) | .rename (.announcing session) =>
    session.id = id
  | .rename (.reading row) => (id : Int) = row ∧ id ∈ table.rows.map SessionRow.id
  | _ => False

/-- What a step shows that broadcasts nothing: its process goes on to announce what it changed
and what it owed. -/
structure Keeps (log : List Happening) (table next : SessionTable) (proc after : RowProc) :
    Prop where
  stays : ∀ row ∈ table.rows, Seen log row.id → row ∈ next.rows ∨ after.owes next row.id
  owed : ∀ id, Seen log id → proc.owes table id → after.owes next id

theorem SessionTable.mem_changed {table next : SessionTable} {id : Nat}
    (changed : id ∈ table.changed next) : ∃ row ∈ table.rows, row.id = id ∧ row ∉ next.rows := by
  obtain ⟨row, member, rfl⟩ := List.mem_map.mp changed
  obtain ⟨old, differs⟩ := List.mem_filter.mp member
  refine ⟨row, old, rfl, fun stays => ?_⟩
  simp only [decide_not, Bool.not_eq_true', decide_eq_false_iff_not, List.any_eq_true,
    decide_eq_true_eq] at differs
  exact differs ⟨row, stays, rfl, rfl, rfl⟩

theorem RowProc.owes_mono {table next : SessionTable} {id : Nat} {proc : RowProc}
    (stays : id ∈ table.rows.map SessionRow.id → id ∈ next.rows.map SessionRow.id)
    (owes : proc.owes table id) : proc.owes next id := by
  cases proc with
  | handler proc =>
    cases proc with
    | create proc => exact owes
    | kill proc => cases proc <;> exact owes
    | dismiss proc => cases proc <;> exact owes
    | reconcile proc => cases proc <;> exact owes
  | rename proc =>
    cases proc with
    | reading row => exact owes.imp_right stays
    | _ => exact owes
  | list proc => exact owes

/-- A step that broadcasts nothing keeps every waiting change owed. -/
theorem Keeps.pending {log : List Happening} {table next : SessionTable} {proc after : RowProc}
    (keeps : Keeps log table next proc after) {id : Nat}
    (waits : Unannounced id ((table.changed next).map .changed ++ log)) :
    after.owes next id ∨ Unannounced id log ∧ ¬ proc.owes table id ∧
      ∀ other : RowProc, other.owes table id → other.owes next id := by
  by_cases own : after.owes next id
  · exact .inl own
  · rcases waits.of_changes with ⟨changed, seen⟩ | before
    · obtain ⟨row, old, rfl, gone⟩ := SessionTable.mem_changed changed
      rcases keeps.stays row old seen with stays | owes
      · exact absurd stays gone
      · exact absurd owes own
    · have seen := before.seen
      refine .inr ⟨before, fun owed => own (keeps.owed id seen owed), fun other => ?_⟩
      refine RowProc.owes_mono fun present => ?_
      obtain ⟨row, old, rfl⟩ := List.mem_map.mp present
      rcases keeps.stays row old seen with stays | owes
      · exact List.mem_map_of_mem stays
      · exact absurd owes own

/-! ### The handlers -/

theorem SessionTable.mem_deleteSession {table : SessionTable} {row : SessionRow}
    (member : row ∈ table.rows) {id : Nat} (other : row.id ≠ id) :
    row ∈ (table.deleteSession id).rows :=
  List.mem_filter.mpr ⟨member, decide_eq_true other⟩

theorem SessionTable.mem_update {table : SessionTable} {row : SessionRow}
    (member : row ∈ table.rows) {id : Nat} (other : row.id ≠ id) {change : SessionRow → SessionRow}
    {kept : ∀ row, (change row).id = row.id} : row ∈ (table.update id change kept).rows :=
  List.mem_map.mpr ⟨row, member, if_neg other⟩

/-- A delete of an unseen row, or one that the process goes on to announce. -/
theorem Keeps.delete {log : List Happening} {table : SessionTable} {proc after : RowProc}
    {id : Nat} (announces : Seen log id → after.owes (table.deleteSession id) id)
    (owed : ∀ other, Seen log other → proc.owes table other →
      after.owes (table.deleteSession id) other) :
    Keeps log table (table.deleteSession id) proc after where
  stays row member seen := by
    by_cases same : row.id = id
    · rw [same] at seen ⊢
      exact .inr (announces seen)
    · exact .inl (SessionTable.mem_deleteSession member same)
  owed := owed

/-- A write to a row that the process goes on to announce. -/
theorem Keeps.update {log : List Happening} {table : SessionTable} {proc after : RowProc}
    {id : Nat} {change : SessionRow → SessionRow} (kept : ∀ row, (change row).id = row.id)
    (announces : id ∈ table.rows.map SessionRow.id → after.owes (table.update id change kept) id)
    (owed : ∀ other, Seen log other → proc.owes table other →
      after.owes (table.update id change kept) other) :
    Keeps log table (table.update id change kept) proc after where
  stays row member _ := by
    by_cases same : row.id = id
    · rw [same]
      exact .inr (announces (same ▸ List.mem_map_of_mem member))
    · exact .inl (SessionTable.mem_update member same)
  owed := owed

theorem Keeps.setStatus {log : List Happening} {table : SessionTable} {proc after : RowProc}
    {id : Nat} {status : SessionStatus}
    (announces : id ∈ table.rows.map SessionRow.id →
      after.owes (table.setSessionStatus id status) id)
    (owed : ∀ other, Seen log other → proc.owes table other →
      after.owes (table.setSessionStatus id status) other) :
    Keeps log table (table.setSessionStatus id status) proc after := by
  unfold SessionTable.setSessionStatus at announces owed ⊢
  exact .update _ announces owed

theorem Keeps.setLabel {log : List Happening} {table next : SessionTable} {proc after : RowProc}
    {id : Nat} {label : List Char} (written : table.setSessionLabel id label = some next)
    (announces : id ∈ next.rows.map SessionRow.id → after.owes next id)
    (owed : ∀ other, Seen log other → proc.owes table other → after.owes next other) :
    Keeps log table next proc after := by
  unfold SessionTable.setSessionLabel at written
  split at written
  · cases written
    refine .update _ (fun present => announces ?_) owed
    obtain ⟨row, member, same⟩ := List.mem_map.mp present
    exact List.mem_map.mpr ⟨_, List.mem_map_of_mem member, by simp [same]⟩
  · cases written

/-- A step that leaves the table. -/
theorem Keeps.same {log : List Happening} {table : SessionTable} {proc after : RowProc}
    (owed : ∀ id, Seen log id → proc.owes table id → after.owes table id) :
    Keeps log table table proc after :=
  ⟨fun _ member _ => .inl member, owed⟩

/-- A step of a handler broadcasts one event and leaves the table, or broadcasts nothing and goes
on to announce what it changed. -/
def Speaks (log : List Happening) (world next : SessionWorld) (proc after : SessionProc) : Prop :=
  (next.table = world.table ∧ ∃ event, next.events = world.events ++ [event]) ∨
    next.events = world.events ∧ Keeps log world.table next.table (.handler proc) (.handler after)

theorem RowProc.owes_iff {table : SessionTable} {id : Nat} {proc : SessionProc}
    (ends : ∀ create, proc ≠ .create create) :
    RowProc.owes table id (.handler proc) ↔ proc.announces id := by
  cases proc with
  | create proc => exact absurd rfl (ends proc)
  | kill proc => cases proc <;> exact .rfl
  | dismiss proc => cases proc <;> exact .rfl
  | reconcile proc => cases proc <;> exact .rfl

theorem RowProc.owes_of_announces {table : SessionTable} {id : Nat} {proc : SessionProc}
    (announces : proc.announces id) : RowProc.owes table id (.handler proc) := by
  refine (RowProc.owes_iff ?_).mpr announces
  rintro create rfl
  exact announces

theorem SessionProc.Does.speaks {world next : SessionWorld} {proc after : SessionProc}
    (does : SessionProc.Does world proc after next) (log : List Happening)
    (ends : ∀ create, proc ≠ .create create) : Speaks log world next proc after := by
  -- What announces nothing owes nothing, in any table.
  have quiet : (∀ id, ¬ proc.announces id) → ∀ {table : SessionTable} id, Seen log id →
      RowProc.owes world.table id (.handler proc) → RowProc.owes table id (.handler after) :=
    fun silent _ id _ owes => absurd ((RowProc.owes_iff ends).mp owes) (silent id)
  cases does with
  | idles silent table events =>
    refine .inr ⟨events, ?_⟩
    rw [table]
    exact .same (quiet silent)
  | marks session silent owed =>
    exact .inr ⟨rfl, .setStatus (fun _ => RowProc.owes_of_announces owed) (quiet silent)⟩
  | deletes session silent owed =>
    exact .inr ⟨rfl, .delete (fun _ => RowProc.owes_of_announces owed) (quiet silent)⟩
  | announces event => exact .inl ⟨rfl, event, rfl⟩

theorem rollback_holds (created : List Session) (error : String) :
    (rollback created error).holds = created := by
  cases created <;> rfl

theorem Launch.next_holds (launch : Launch) : launch.next.holds = launch.created := by
  unfold Launch.next
  split <;> rfl

/-- A launch that lets go of nothing but the row it deletes owes what it owed. -/
theorem CreateSession.owed {log : List Happening} {table next : SessionTable}
    {proc after : CreateSession}
    (unseen : ∀ session, proc.deletes = some session → ¬ Seen log session.id)
    (holds : ∀ session ∈ proc.holds, session ∈ after.holds ∨ proc.deletes = some session) (id : Nat)
    (seen : Seen log id) (owes : RowProc.owes table id (.handler (.create proc))) :
    RowProc.owes next id (.handler (.create after)) := by
  obtain ⟨session, member, rfl⟩ := List.mem_map.mp owes
  rcases holds session member with still | gone
  · exact List.mem_map_of_mem still
  · exact absurd seen (unseen session gone)

/-- A step of a launch that announces no session broadcasts nothing, and the launch holds on to
its sessions, but for the one whose row it deletes. -/
theorem handleCreateSession_silent {world next : SessionWorld} {proc after : CreateSession}
    {outcome : Outcome} (silent : ∀ session rest, proc ≠ .announcing (session :: rest))
    (stepped : handleCreateSession world proc outcome = some (next, after)) :
    next.events = world.events ∧
      ∀ session ∈ proc.holds, session ∈ after.holds ∨ proc.deletes = some session := by
  have nothing : ∀ {after : CreateSession}, ∀ session ∈ ([] : List Session),
      session ∈ after.holds ∨ proc.deletes = some session :=
    fun session held => absurd held List.not_mem_nil
  cases proc with
  | listingTools body => cases outcome <;> cases stepped <;> exact ⟨rfl, nothing⟩
  | listingDirs body tools =>
    cases outcome with
    | fails error =>
      cases stepped
      exact ⟨rfl, nothing⟩
    | ok =>
      simp only [handleCreateSession] at stepped
      split at stepped <;> cases stepped <;> exact ⟨rfl, nothing⟩
  | sampling launch command =>
    cases stepped
    exact ⟨rfl, fun _ => .inl⟩
  | inserting launch command now =>
    cases outcome with
    | fails error =>
      cases stepped
      exact ⟨rfl, fun session held => .inl (by rwa [rollback_holds])⟩
    | ok =>
      cases stepped
      exact ⟨rfl, fun _ => .inl⟩
  | checking launch command session =>
    simp only [handleCreateSession] at stepped
    split at stepped
    · cases stepped
      exact ⟨rfl, fun _ => .inl⟩
    · split at stepped
      · cases stepped
        exact ⟨rfl, fun _ => .inl⟩
      · cases stepped
        exact ⟨rfl, fun _ held => .inl (List.mem_append_left _ held)⟩
  | skipping launch command session =>
    cases outcome with
    | fails error =>
      cases stepped
      exact ⟨rfl, fun session held => .inl (by rwa [rollback_holds])⟩
    | ok =>
      cases stepped
      exact ⟨rfl, fun _ => .inl⟩
  | labelling launch command session =>
    cases outcome with
    | fails error =>
      cases stepped
      exact ⟨rfl, fun _ held => .inl (List.mem_append_left _ held)⟩
    | ok =>
      simp only [handleCreateSession] at stepped
      split at stepped <;> cases stepped
      · exact ⟨rfl, fun _ held => .inl (List.mem_append_left _ held)⟩
      · exact ⟨rfl, fun _ held => .inl (List.mem_append_left _ held)⟩
  | starting launch session =>
    cases outcome with
    | fails error =>
      cases stepped
      exact ⟨rfl, fun _ => .inl⟩
    | ok =>
      simp only [handleCreateSession] at stepped
      split at stepped
      · cases stepped
        exact ⟨rfl, fun _ => .inl⟩
      · cases stepped
        refine ⟨rfl, fun _ held => .inl ?_⟩
        rwa [Launch.next_holds]
  | dropping launch session error =>
    have holds : ∀ other ∈ (CreateSession.dropping launch session error).holds,
        other ∈ (rollback launch.created error).holds ∨
          (CreateSession.dropping launch session error).deletes = some other := by
      intro other held
      rw [rollback_holds]
      exact (List.mem_append.mp held).imp_right fun last => by
        rw [List.mem_singleton.mp last]
        rfl
    cases outcome <;> cases stepped <;> exact ⟨rfl, holds⟩
  | killing session rest error =>
    cases outcome <;> cases stepped <;> exact ⟨rfl, fun _ => .inl⟩
  | deleting session rest error =>
    have holds : ∀ other ∈ (CreateSession.deleting session rest error).holds,
        other ∈ (rollback rest error).holds ∨
          (CreateSession.deleting session rest error).deletes = some other := by
      intro other held
      rw [rollback_holds]
      exact (List.mem_cons.mp held).symm.imp_right fun first => by
        rw [first]
        rfl
    cases outcome <;> cases stepped <;> exact ⟨rfl, holds⟩
  | recording created =>
    cases stepped
    exact ⟨rfl, fun _ => .inl⟩
  | announcing created =>
    cases created with
    | nil =>
      cases stepped
      exact ⟨rfl, nothing⟩
    | cons session rest => exact absurd rfl (silent session rest)
  | answered response => cases stepped

/-- A launch writes rows of its own, and no list call returned the rows it deletes. -/
theorem handleCreateSession_speaks {world next : SessionWorld} {proc after : CreateSession}
    {outcome : Outcome} {log : List Happening}
    (unseen : ∀ session, proc.deletes = some session → ¬ Seen log session.id)
    (stepped : handleCreateSession world proc outcome = some (next, after)) :
    Speaks log world next (.create proc) (.create after) := by
  by_cases announces : ∃ session rest, proc = .announcing (session :: rest)
  · obtain ⟨session, rest, rfl⟩ := announces
    cases stepped
    exact .inl ⟨rfl, _, rfl⟩
  · obtain ⟨events, holds⟩ := handleCreateSession_silent
      (fun session rest same => announces ⟨session, rest, same⟩) stepped
    have writes := handleCreateSession_writes stepped
    refine .inr ⟨events, ?_⟩
    generalize written : next.table = table at writes ⊢
    cases writes with
    | nothing => exact .same (CreateSession.owed unseen holds)
    | inserts launch command now =>
      exact ⟨fun row member _ => .inl (List.mem_append_left _ member),
        CreateSession.owed unseen holds⟩
    | labels launch command session labelled =>
      refine .setLabel labelled (fun _ => ?_) (CreateSession.owed unseen holds)
      simp only [handleCreateSession, labelled] at stepped
      cases stepped
      exact List.mem_map.mpr ⟨_, List.mem_append_right _ (List.mem_singleton_self _), rfl⟩
    | skips launch command session =>
      exact .delete (fun seen => absurd seen (unseen session rfl))
        (CreateSession.owed unseen holds)
    | drops launch session error =>
      exact .delete (fun seen => absurd seen (unseen session rfl))
        (CreateSession.owed unseen holds)
    | deletes session rest error =>
      exact .delete (fun seen => absurd seen (unseen session rfl))
        (CreateSession.owed unseen holds)

/-! ### Runs -/

/-- A session that is not found has no row. -/
theorem SessionTable.not_mem_of_getSession {table : SessionTable} {id : Nat}
    (missing : table.getSession id = none) : id ∉ table.rows.map SessionRow.id := by
  intro present
  obtain ⟨row, member, rfl⟩ := List.mem_map.mp present
  have absent := List.find?_eq_none.mp (Option.map_eq_none_iff.mp missing) row member
  exact absent (decide_eq_true rfl)

theorem SessionTable.id_of_getSession {table : SessionTable} {id : Int} {session : Session}
    (found : table.getSession id = some session) : (session.id : Int) = id := by
  obtain ⟨row, search, rfl⟩ := Option.map_eq_some_iff.mp found
  have same := List.find?_some search
  exact of_decide_eq_true same

/-- A step of a rename. -/
theorem handleRenameSession_owes {world next : RowWorld} {proc after : RenameSession}
    {outcome : Outcome} (reads : RowProc.DeletesUnseen world.log (.rename proc) outcome)
    (stepped : handleRenameSession world proc outcome = some (next, after)) {id : Nat}
    (waits : Unannounced id next.log) :
    RowProc.owes next.base.table id (.rename after) ∨ Unannounced id world.log ∧
      ¬ RowProc.owes world.base.table id (.rename proc) ∧ ∀ other : RowProc,
        other.owes world.base.table id → other.owes next.base.table id := by
  cases proc with
  | writing row label =>
    cases outcome with
    | fails error =>
      cases stepped
      exact .inr ⟨waits, fun owes => owes, fun _ owes => owes⟩
    | ok =>
      simp only [handleRenameSession] at stepped
      split at stepped
      · cases stepped
        exact .inr ⟨waits, fun owes => owes, fun _ owes => owes⟩
      · rename_i table written
        cases stepped
        unfold SessionTable.relabel at written
        split at written
        · rename_i natural
          have keeps : Keeps world.log world.base.table table (.rename (.writing row label))
              (.rename (.reading row)) :=
            .setLabel written (fun present => ⟨Int.toNat_of_nonneg natural, present⟩)
              fun _ _ owes => owes.elim
          simp only [RowWorld.observe, List.drop_length] at waits
          exact keeps.pending waits
        · cases written
  | reading row =>
    cases outcome with
    | fails error => exact reads.elim
    | ok =>
      simp only [handleRenameSession] at stepped
      split at stepped
      · rename_i missing
        cases stepped
        refine .inr ⟨waits, fun owes => ?_, fun _ owes => owes⟩
        obtain ⟨rfl, present⟩ := owes
        exact SessionTable.not_mem_of_getSession missing present
      · rename_i session found
        cases stepped
        by_cases same : session.id = id
        · exact .inl same
        · refine .inr ⟨waits, fun owes => same ?_, fun _ owes => owes⟩
          have named := SessionTable.id_of_getSession found
          rw [← owes.1] at named
          exact Int.ofNat.inj named
  | announcing session =>
    cases stepped
    exact waits.elim
  | answered response => cases stepped

/-- What one step of a process does to the log, and what its process owes from then on. -/
theorem serveRow_owes {pool : Pool RowWorld RowProc} {index : Nat} {outcome : Outcome}
    {proc after : RowProc} {world : RowWorld}
    (unseen : DeletesUnseen pool (.advance index outcome))
    (present : pool.procs[index]? = some proc)
    (stepped : serveRow pool.world proc outcome = some (world, after)) {id : Nat}
    (waits : Unannounced id world.log) :
    after.owes world.base.table id ∨ Unannounced id pool.world.log ∧
      ¬ proc.owes pool.world.base.table id ∧ ∀ other : RowProc,
        other.owes pool.world.base.table id → other.owes world.base.table id := by
  have unseen := unseen proc present
  cases proc with
  | handler proc =>
    obtain ⟨⟨next, place⟩, served, same⟩ := Option.map_eq_some_iff.mp stepped
    cases same
    have speaks : Speaks pool.world.log pool.world.base next proc place := by
      rcases serveSession_does served with ⟨create, created, rfl, rfl, done⟩ | ⟨ends, does⟩
      · exact handleCreateSession_speaks unseen done
      · exact does.speaks _ ends
    rcases speaks with ⟨table, event, spoken⟩ | ⟨silent, keeps⟩
    · simp only [RowWorld.observe, spoken, List.drop_left] at waits
      exact waits.elim
    · simp only [RowWorld.observe, silent, List.drop_length] at waits
      exact keeps.pending waits
  | rename proc =>
    obtain ⟨⟨next, place⟩, done, same⟩ := Option.map_eq_some_iff.mp stepped
    cases same
    exact handleRenameSession_owes unseen done waits
  | list proc =>
    obtain ⟨⟨next, place⟩, done, same⟩ := Option.map_eq_some_iff.mp stepped
    cases same
    refine .inr ?_
    cases proc with
    | reading =>
      cases outcome <;> cases done <;> exact ⟨waits, fun owes => owes, fun _ owes => owes⟩
    | answered sessions => cases done

/-- In every such run a change that waits for its event is owed by a process under way. -/
theorem owed_run (start : SessionWorld) {final : Pool RowWorld RowProc}
    {moves : List (Move RowRequest Outcome SessionOutside)}
    (run : Run rowMachine.next DeletesUnseen start.unwatched moves final) :
    final.Owed (fun world id => Unannounced id world.log) fun world proc id =>
      proc.owes world.base.table id := by
  refine Machine.owed_of_run ?_ ?_ ?_ run
  · intro id waits
    exact waits.elim
  · intro pool index outcome proc world after _ unseen present stepped id waits
    exact (serveRow_owes unseen present stepped waits).imp_right fun still =>
      ⟨still.1, still.2.1, fun other _ => still.2.2 other⟩
  · intro world event next occurred id waits
    obtain ⟨base, happened, rfl⟩ := Option.map_eq_some_iff.mp occurred
    have same : base.table = world.base.table := by
      cases event with
      | wait duration =>
        cases happened
        rfl
      | exits name =>
        cases happened
        rfl
      | starts name =>
        simp only [occurSession] at happened
        split at happened <;> cases happened
        rfl
    refine ⟨waits, fun proc owes => ?_⟩
    show proc.owes base.table id
    rwa [same]

theorem RowProc.not_owes_of_finished {table : SessionTable} {id : Nat} {proc : RowProc}
    (finished : proc.finished = true) : ¬ proc.owes table id := by
  intro owes
  cases proc with
  | handler proc =>
    cases proc with
    | create proc =>
      cases proc <;> cases finished
      cases owes
    | kill proc =>
      cases proc <;> cases finished
      cases owes
    | dismiss proc =>
      cases proc <;> cases finished
      cases owes
    | reconcile proc =>
      cases proc <;> cases finished
      cases owes
  | rename proc =>
    cases proc <;> cases finished
    cases owes
  | list proc => cases owes

/-- As long as no launch deletes a row that a list call returned, every change of such a row was
followed by an event once the requests are answered. -/
theorem changes_announced (start : SessionWorld)
    {moves : List (Move RowRequest Outcome SessionOutside)} {final : Pool RowWorld RowProc}
    (run : Run rowMachine.next DeletesUnseen start.unwatched moves final)
    (settled : ∀ proc ∈ final.procs, proc.finished = true) : Announced final.world.log := by
  refine announced_of_none_waits fun id waits => ?_
  obtain ⟨proc, member, owes⟩ := owed_run start run id waits
  exact RowProc.not_owes_of_finished (settled proc member) owes

/-- A launch, a list call that returns its row, and a kill. -/
def listedKill : List (Move RowRequest Outcome SessionOutside) :=
  [.arrive (.handler (.create (some ⟨1, 1, []⟩))), .advance 0 .ok, .advance 0 .ok, .advance 0 .ok,
    .advance 0 .ok, .advance 0 .ok, .advance 0 .ok, .advance 0 .ok, .advance 0 .ok, .advance 0 .ok,
    .arrive .list, .advance 1 .ok, .arrive (.handler (.kill (some 1))), .advance 2 .ok,
    .advance 2 .ok, .advance 2 .ok, .advance 2 .ok]

theorem listed_kill_announced :
    ∃ final, exec rowMachine.next idleWorld.unwatched listedKill = some final ∧
      final.world.base.events.length = 2 ∧ Announced final.world.log := by
  refine ⟨_, rfl, rfl, ?_⟩
  have run : Run rowMachine.next DeletesUnseen idleWorld.unwatched listedKill _ :=
    Run.of_exec rfl (by decide)
  exact changes_announced idleWorld run (by decide)

/-! ### A launch that is undone under a list call -/

/-- Only the calls of a launch fail. -/
def failsInLaunch (pool : Pool RowWorld RowProc) : Move RowRequest Outcome SessionOutside → Bool
  | .advance index (.fails _) =>
    match pool.procs[index]? with
    | some (.handler (.create _)) => true
    | _ => false
  | _ => true

/-- A list call returns the row of a launch whose tmux session does not start. -/
def undoneLaunch : List (Move RowRequest Outcome SessionOutside) :=
  [.arrive (.handler (.create (some ⟨1, 1, []⟩))), .advance 0 .ok, .advance 0 .ok, .advance 0 .ok,
    .advance 0 .ok, .arrive .list, .advance 1 .ok, .advance 0 .ok,
    .advance 0 (.fails "exit status 1"), .advance 0 .ok]

/-- The row is deleted in silence, and the client that was told of it keeps it. -/
theorem undone_launch_unannounced :
    ¬ ∀ (start : SessionWorld) (moves : List (Move RowRequest Outcome SessionOutside))
      (final : Pool RowWorld RowProc),
      Run rowMachine.next (fun pool move => failsInLaunch pool move = true) start.unwatched moves
        final → (∀ proc ∈ final.procs, proc.finished = true) → Announced final.world.log := by
  intro always
  have announced := always idleWorld undoneLaunch _ (Run.of_exec rfl (by decide)) (by decide)
  obtain ⟨announcement, impossible⟩ := announced [] 1 _ rfl
    ⟨_, List.mem_cons_self .., List.mem_cons_self ..⟩
  cases impossible

end Multimux
