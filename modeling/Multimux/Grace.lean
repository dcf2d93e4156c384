/-
This file is about the grace that a reconcile pass leaves to a row whose tmux
session does not exist yet. A pass reads the rows, lists the tmux sessions and
samples the clock, each in its own time, and it compares a clock reading that
is later than its listing with an instant that went through a text column. A
pass that lists tmux ahead of the session's start therefore declares the row
dead unless it samples the clock less than the grace after the start of the
second in which the row was created.
-/

import Multimux.Sessions

namespace Multimux

/-! ### The runs in question -/

/-- The row of an id is inserted by a launch that sampled a given instant. -/
def CreatedAt (id : Nat) (created : Int) (pool : Pool SessionWorld SessionProc) :
    Move SessionRequest Outcome SessionOutside → Prop
  | .advance index .ok =>
    match pool.procs[index]? with
    | some (.create (.inserting _ _ now)) => pool.world.table.seq + 1 = id → now = created
    | _ => True
  | _ => True

/-- The row of an id is created at a given instant, and its tmux session exists at every
instant from another one on. -/
structure LiveRow (id : Nat) (created existsFrom : Int) (pool : Pool SessionWorld SessionProc)
    (move : Move SessionRequest Outcome SessionOutside) : Prop where
  createdAt : CreatedAt id created pool move
  alive : existsFrom ≤ pool.world.now → tmuxNameOf id ∈ pool.world.tmux

/-- A pass that reads the row and lists tmux before its session exists for good samples the
clock less than the grace after the start of the second of the row's creation. -/
def SamplesInTime (id : Nat) (created existsFrom : Int) (pool : Pool SessionWorld SessionProc) :
    Move SessionRequest Outcome SessionOutside → Prop
  | .advance index _ =>
    match pool.procs[index]? with
    | some (.reconcile (.sampling sessions _ listed)) =>
      (∃ session ∈ sessions, session.id = id) → listed < existsFrom →
        pool.world.now < (Rfc3339.format created).parse + reconcileGrace
    | _ => True
  | _ => True

/-- The move is the one in which a pass sets the status of the row. -/
def MarksDead (id : Nat) (pool : Pool SessionWorld SessionProc) :
    Move SessionRequest Outcome SessionOutside → Prop
  | .advance index .ok =>
    match pool.procs[index]? with
    | some (.reconcile (.marking (session :: _) _)) => session.id = id
    | _ => False
  | _ => False

instance CreatedAt.decidable (id : Nat) (created : Int) (pool : Pool SessionWorld SessionProc) :
    DecidablePred (CreatedAt id created pool)
  | .arrive _ => .isTrue trivial
  | .occur _ => .isTrue trivial
  | .advance _ (.fails _) => .isTrue trivial
  | .advance index .ok => by
    unfold CreatedAt
    dsimp only
    split <;> infer_instance

instance LiveRow.decidable (id : Nat) (created existsFrom : Int)
    (pool : Pool SessionWorld SessionProc) : DecidablePred (LiveRow id created existsFrom pool) :=
  fun move => decidable_of_iff (CreatedAt id created pool move ∧
      (existsFrom ≤ pool.world.now → pool.world.tmux.contains (tmuxNameOf id) = true))
    ⟨fun ⟨createdAt, alive⟩ => ⟨createdAt, fun late => List.contains_iff_mem.mp (alive late)⟩,
      fun live => ⟨live.createdAt, fun late => List.contains_iff_mem.mpr (live.alive late)⟩⟩

instance SamplesInTime.decidable (id : Nat) (created existsFrom : Int)
    (pool : Pool SessionWorld SessionProc) :
    DecidablePred (SamplesInTime id created existsFrom pool)
  | .arrive _ => .isTrue trivial
  | .occur _ => .isTrue trivial
  | .advance index _ => by
    unfold SamplesInTime
    dsimp only
    split <;> infer_instance

/-! ### The column of a row -/

/-- Every row of the id has the instant in its column. -/
def SessionTable.Dated (table : SessionTable) (id : Nat) (created : Int) : Prop :=
  ∀ row ∈ table.rows, row.id = id → row.createdAt = .format created

variable {table : SessionTable} {id : Nat} {created : Int}

theorem SessionTable.Dated.createSession {toolId now : Int} {dir : List Char}
    (dated : table.Dated id created) (sampled : table.seq + 1 = id → now = created) :
    (table.createSession toolId dir now).Dated id created := by
  intro row member same
  rcases List.mem_append.mp member with old | new
  · exact dated row old same
  · cases List.mem_singleton.mp new
    exact congrArg Rfc3339.format (sampled same)

theorem SessionTable.Dated.deleteSession (dated : table.Dated id created) (deleted : Nat) :
    (table.deleteSession deleted).Dated id created :=
  fun row member => dated row (List.mem_filter.mp member).1

theorem SessionTable.Dated.update {updated : Nat} {change : SessionRow → SessionRow}
    {kept : ∀ row, (change row).id = row.id} (dated : table.Dated id created)
    (column : ∀ row, (change row).createdAt = row.createdAt) :
    (table.update updated change kept).Dated id created := by
  intro row member same
  obtain ⟨old, present, rfl⟩ := List.mem_map.mp member
  split at same
  · rw [if_pos ‹_›, column]
    exact dated old present (kept old ▸ same)
  · rw [if_neg ‹_›]
    exact dated old present same

theorem SessionTable.Dated.setSessionStatus (dated : table.Dated id created) (target : Nat)
    (status : SessionStatus) : (table.setSessionStatus target status).Dated id created :=
  dated.update fun _ => rfl

theorem SessionTable.Dated.setSessionLabel {labelled : SessionTable} {target : Nat}
    {label : List Char} (dated : table.Dated id created)
    (written : table.setSessionLabel target label = some labelled) :
    labelled.Dated id created := by
  unfold SessionTable.setSessionLabel at written
  split at written <;> cases written
  exact dated.update fun _ => rfl

/-- What is read of a dated row is dated to the second. -/
theorem SessionTable.Dated.listSessions (dated : table.Dated id created) :
    ∀ session ∈ table.listSessions, session.id = id →
      session.createdAt = (Rfc3339.format created).parse := by
  intro session member same
  obtain ⟨row, present, rfl⟩ := List.mem_map.mp member
  exact congrArg Rfc3339.parse (dated row present same)

/-! ### What a step keeps -/

variable {world after : SessionWorld} {existsFrom : Int}

theorem dated_handleCreateSession {proc next : CreateSession} {outcome : Outcome}
    (dated : world.table.Dated id created)
    (sampled : ∀ launch command now, proc = .inserting launch command now → outcome = .ok →
      world.table.seq + 1 = id → now = created)
    (stepped : handleCreateSession world proc outcome = some (after, next)) :
    after.table.Dated id created := by
  have writes := handleCreateSession_writes stepped
  generalize after.table = written at writes ⊢
  cases writes with
  | nothing => exact dated
  | inserts launch command now => exact dated.createSession (sampled launch command now rfl rfl)
  | labels launch command session relabelled => exact dated.setSessionLabel relabelled
  | skips launch command session => exact dated.deleteSession session.id
  | drops launch session error => exact dated.deleteSession session.id
  | deletes session rest error => exact dated.deleteSession session.id

theorem SessionTable.Dated.does {proc next : SessionProc} (dated : world.table.Dated id created)
    (does : SessionProc.Does world proc next after) : after.table.Dated id created := by
  cases does with
  | idles silent table events => rwa [table]
  | marks session silent owed => exact dated.setSessionStatus session.id .dead
  | deletes session silent owed => exact dated.deleteSession session.id
  | announces event => exact dated

/-! ### What a pass declares dead -/

theorem Session.declaredDead_iff {session : Session} {alive : List (List Char)} {now : Int} :
    session.declaredDead alive now = true ↔ session.status = .running ∧
      session.tmuxName ∉ alive ∧ session.createdAt + reconcileGrace ≤ now := by
  unfold Session.declaredDead
  rw [decide_eq_true_iff]
  refine and_congr_right fun _ => and_congr_right fun _ => ?_
  omega

/-- What a pass holds that spares a row: the rows it read are dated, a listing from the time the
session exists has it, and what it is to mark is other rows. -/
def Reconcile.Spares (id : Nat) (created existsFrom : Int) : Reconcile → Prop
  | .reading | .returned _ _ => True
  | .listing sessions =>
    ∀ session ∈ sessions, session.id = id → session.createdAt = (Rfc3339.format created).parse
  | .sampling sessions alive listed =>
    (∀ session ∈ sessions, session.id = id →
      session.createdAt = (Rfc3339.format created).parse) ∧
        (existsFrom ≤ listed → tmuxNameOf id ∈ alive)
  | .marking dead _ | .announcing _ dead _ => ∀ session ∈ dead, session.id ≠ id

theorem Reconcile.Spares.step {pass next : Reconcile} {outcome : Outcome}
    (spares : pass.Spares id created existsFrom) (dated : world.table.Dated id created)
    (alive : existsFrom ≤ world.now → tmuxNameOf id ∈ world.tmux)
    (inTime : ∀ sessions names listed, pass = .sampling sessions names listed →
      (∃ session ∈ sessions, session.id = id) → listed < existsFrom →
      world.now < (Rfc3339.format created).parse + reconcileGrace)
    (stepped : reconcile world pass outcome = some (after, next)) :
    next.Spares id created existsFrom := by
  cases pass with
  | reading =>
    cases outcome <;> cases stepped
    · exact dated.listSessions
    · exact trivial
  | listing sessions =>
    cases outcome <;> cases stepped
    · exact ⟨spares, alive⟩
    · exact trivial
  | sampling sessions names listed =>
    cases stepped
    intro session member same
    obtain ⟨read, declared⟩ := List.mem_filter.mp member
    obtain ⟨-, absent, old⟩ := Session.declaredDead_iff.mp declared
    rw [session.named, same] at absent
    rw [spares.1 session read same] at old
    have early : listed < existsFrom := lt_of_not_ge fun late => absent (spares.2 late)
    exact absurd old (not_le_of_gt (inTime sessions names listed rfl ⟨session, read, same⟩ early))
  | marking dead newlyDead =>
    cases dead with
    | nil =>
      cases stepped
      exact trivial
    | cons session rest =>
      cases outcome <;> cases stepped
      · exact fun other member => spares other (List.mem_cons_of_mem _ member)
      · exact trivial
  | announcing session dead newlyDead =>
    cases stepped
    exact spares
  | returned newlyDead error => cases stepped

/-! ### Runs -/

/-- Rows are dated, and every pass spares the row. -/
def graceOutline (id : Nat) (created existsFrom : Int) : Outline SessionWorld SessionProc where
  shared world := world.table.Dated id created
  here _ proc := ∀ pass, proc = .reconcile pass → pass.Spares id created existsFrom
  apart _ _ := True

theorem graceOutline_run {moves : List (Move SessionRequest Outcome SessionOutside)}
    {final : Pool SessionWorld SessionProc} (dated : world.table.Dated id created)
    (run : Run sessionMachine.next (fun pool move => LiveRow id created existsFrom pool move ∧
      SamplesInTime id created existsFrom pool move) world.quiet moves final) :
    (graceOutline id created existsFrom).Holds final := by
  refine (graceOutline id created existsFrom).holds_of_run ?_ ?_ ?_ ?_ run
  · intro pool request _ _
    refine ⟨?_, fun _ _ => ⟨trivial, trivial⟩⟩
    rintro pass same
    cases request with
    | create body => cases body <;> cases same
    | kill id => cases id <;> cases same
    | dismiss id => cases id <;> cases same
    | reconcile =>
      cases same
      exact trivial
  · rintro pool index outcome proc world next holds ⟨live, inTime⟩ present stepped
    have here := holds.here index proc present
    suffices both : world.table.Dated id created ∧
        ∀ pass, next = .reconcile pass → pass.Spares id created existsFrom from
      ⟨both.1, both.2, fun other proc _ found =>
        ⟨holds.here other proc found, trivial, trivial⟩⟩
    cases proc with
    | create create =>
      obtain ⟨⟨_, _⟩, taken, ⟨⟩⟩ := Option.map_eq_some_iff.mp stepped
      refine ⟨dated_handleCreateSession holds.shared ?_ taken, nofun⟩
      rintro launch command now rfl rfl
      have sampled := live.createdAt
      rwa [CreatedAt, present] at sampled
    | kill kill =>
      obtain ⟨⟨_, _⟩, taken, ⟨⟩⟩ := Option.map_eq_some_iff.mp stepped
      exact ⟨holds.shared.does (handleKillSession_does taken), nofun⟩
    | dismiss dismiss =>
      obtain ⟨⟨_, _⟩, taken, ⟨⟩⟩ := Option.map_eq_some_iff.mp stepped
      exact ⟨holds.shared.does (handleDismissSession_does taken), nofun⟩
    | reconcile pass =>
      obtain ⟨⟨_, _⟩, taken, ⟨⟩⟩ := Option.map_eq_some_iff.mp stepped
      refine ⟨holds.shared.does (reconcile_does taken), ?_⟩
      rintro _ ⟨⟩
      refine (here pass rfl).step holds.shared live.alive ?_ taken
      rintro sessions names listed rfl
      rwa [SamplesInTime, present] at inTime
  · intro pool event world holds _ occurred
    refine ⟨?_, holds.here, holds.apart⟩
    cases event with
    | wait duration => cases occurred; exact holds.shared
    | exits name => cases occurred; exact holds.shared
    | starts name =>
      simp only [sessionMachine, occurSession] at occurred
      split at occurred <;> cases occurred
      exact holds.shared
  · exact (graceOutline id created existsFrom).holds_empty dated

/-- In a run in which the row's session exists from some instant on, and every pass that lists
tmux before it samples the clock in time, no pass marks the row in any state. -/
theorem live_row_not_marked_dead (id : Nat) (created existsFrom : Int) (world : SessionWorld)
    (dated : world.table.Dated id created)
    (moves : List (Move SessionRequest Outcome SessionOutside))
    (final : Pool SessionWorld SessionProc)
    (run : Run sessionMachine.next (fun pool move => LiveRow id created existsFrom pool move ∧
      SamplesInTime id created existsFrom pool move) world.quiet moves final)
    (move : Move SessionRequest Outcome SessionOutside) : ¬ MarksDead id final move := by
  have holds := graceOutline_run dated run
  intro marks
  unfold MarksDead at marks
  split at marks
  · split at marks
    · rename_i index _ session rest newlyDead present
      exact holds.here index _ present _ rfl session List.mem_cons_self marks
    · exact marks
  · exact marks

/-- A launch at `created` that starts its tmux session at `listed`, and a pass that lists tmux
just before that and samples the clock at `sampled`. -/
def listThenStart (created listed sampled : Nat) :
    List (Move SessionRequest Outcome SessionOutside) :=
  [.occur (.wait created), .arrive (.create (some ⟨1, 1, []⟩)), .advance 0 .ok, .advance 0 .ok,
    .advance 0 .ok, .advance 0 .ok, .arrive .reconcile, .advance 1 .ok,
    .occur (.wait (listed - created)), .advance 1 .ok, .advance 0 .ok, .advance 0 .ok,
    .occur (.wait (sampled - listed)), .advance 1 .ok]

/-- A pass that lists tmux two seconds after the launch and samples the clock at once. -/
theorem young_row_not_marked_dead :
    ∃ final, exec sessionMachine.next idleWorld.quiet
        (listThenStart 900000000 2900000000 2900000001) = some final ∧
      ∀ move, ¬ MarksDead 1 final move := by
  refine ⟨_, rfl, live_row_not_marked_dead 1 900000000 2900000001 idleWorld nofun
    (listThenStart 900000000 2900000000 2900000001) _ (Run.of_exec rfl (by decide))⟩

/-- A row created at 0.9 seconds is declared dead 9.3 seconds later, on a listing that was taken
just before its session started. -/
theorem live_row_marked_dead :
    ¬ ∀ (id : Nat) (created existsFrom : Int) (world : SessionWorld)
        (moves : List (Move SessionRequest Outcome SessionOutside))
        (final : Pool SessionWorld SessionProc)
        (move : Move SessionRequest Outcome SessionOutside),
        existsFrom ≤ created + reconcileGrace → world.table.Dated id created →
        Run sessionMachine.next (LiveRow id created existsFrom) world.quiet moves final →
        ¬ MarksDead id final move := by
  intro never
  have run : Run sessionMachine.next (LiveRow 1 900000000 10200000001) idleWorld.quiet
      (listThenStart 900000000 10200000000 10200000001) _ := Run.of_exec rfl (by decide)
  exact never 1 900000000 10200000001 idleWorld _ _ (.advance 1 .ok) (by decide) nofun run rfl

-- A row created at a full second falls to a pass that samples the clock six seconds after its
-- listing.
example : ∃ final, Run sessionMachine.next (LiveRow 1 0 4000000001) idleWorld.quiet
    (listThenStart 0 4000000000 10000000000) final ∧ MarksDead 1 final (.advance 1 .ok) :=
  ⟨_, Run.of_exec rfl (by decide), rfl⟩

end Multimux
