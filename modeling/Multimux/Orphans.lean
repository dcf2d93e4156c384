/-
This file is about the tmux sessions that launches start: whether each that
still exists has a running row. Every handler keeps it so for the sessions that
have started. A launch, however, shows its row before its tmux session exists,
and a kill takes an absent session for killed; a kill that reaches tmux in
between marks the row of a session dead that starts afterwards. In the runs in
which no kill does, no session is orphaned in any state.
-/

import Multimux.Sessions

namespace Multimux

/-! ### What is asked, and of which runs -/

/-- Every tmux session that a launch started and that still exists has a running row. -/
def NoOrphan (world : SessionWorld) : Prop :=
  ∀ name ∈ world.launched, name ∈ world.tmux →
    ∃ row ∈ world.table.rows, row.tmuxName = name ∧ row.status = .running

instance NoOrphan.decidable : DecidablePred NoOrphan := fun world =>
  inferInstanceAs (Decidable (∀ name ∈ world.launched, name ∈ world.tmux →
    ∃ row ∈ world.table.rows, row.tmuxName = name ∧ row.status = .running))

/-- The handlers in question, with no call that fails. Only the handlers start tmux
sessions. -/
def HandlersOnly : Move SessionRequest Outcome SessionOutside → Prop
  | .arrive .reconcile => False
  | .advance _ (.fails _) => False
  | .occur (.starts _) => False
  | _ => True

instance HandlersOnly.decidable : DecidablePred HandlersOnly
  | .arrive (.create _) => .isTrue trivial
  | .arrive (.kill _) => .isTrue trivial
  | .arrive (.dismiss _) => .isTrue trivial
  | .arrive .reconcile => .isFalse not_false
  | .advance _ .ok => .isTrue trivial
  | .advance _ (.fails _) => .isFalse not_false
  | .occur (.wait _) => .isTrue trivial
  | .occur (.exits _) => .isTrue trivial
  | .occur (.starts _) => .isFalse not_false

/-- Whether a handler has answered. -/
def SessionProc.finished : SessionProc → Bool
  | .create (.answered _) | .kill (.answered _) | .dismiss (.answered _)
  | .reconcile (.returned _ _) => true
  | _ => false

/-! ### What a process stands for -/

/-- The ids that matter to where a process stands: those whose tmux sessions it started, the one
whose row it inserted and whose tmux session it did not start, that one while it is about to
start, the one whose tmux session it has killed, and those of a kill, of its mark and of a
dismissal. -/
structure Stake where
  started : List Nat
  held : Option Nat
  pending : Option Nat
  gone : Option Nat
  killed : Option Nat
  marked : Option Nat
  dismissed : Option Nat

/-- A request that holds nothing. -/
@[simp]
def Stake.nothing : Stake := ⟨[], none, none, none, none, none, none⟩

/-- What a launch holds: the sessions it started, and the row it is about to start. -/
@[simp]
def CreateSession.stake : CreateSession → Stake
  | .sampling launch _ | .inserting launch _ _ =>
    { Stake.nothing with started := launch.created.map (·.id) }
  | .checking launch _ session | .labelling launch _ session | .starting launch session =>
    { Stake.nothing with
      started := launch.created.map (·.id)
      held := some session.id
      pending := some session.id }
  | .skipping launch _ session | .dropping launch session _ =>
    { Stake.nothing with started := launch.created.map (·.id), held := some session.id }
  | .killing session rest _ =>
    { Stake.nothing with started := (session :: rest).map (·.id) }
  | .deleting session rest _ =>
    { Stake.nothing with started := (session :: rest).map (·.id), gone := some session.id }
  | .recording created | .announcing created =>
    { Stake.nothing with started := created.map (·.id) }
  | .listingTools _ | .listingDirs _ _ | .answered _ => .nothing

/-- What a kill holds: the row it read, and the session that it has killed. -/
@[simp]
def KillSession.stake : KillSession → Stake
  | .killing session => { Stake.nothing with killed := some session.id }
  | .marking session =>
    { Stake.nothing with
      killed := some session.id
      marked := some session.id
      gone := some session.id }
  | .reading _ | .announcing _ | .answered _ => .nothing

/-- What a dismissal holds: the row it read. -/
@[simp]
def DismissSession.stake : DismissSession → Stake
  | .deleting session => { Stake.nothing with dismissed := some session.id }
  | .reading _ | .announcing _ | .answered _ => .nothing

/-- What a request holds. -/
@[simp]
def SessionProc.stake : SessionProc → Stake
  | .create proc => proc.stake
  | .kill proc => proc.stake
  | .dismiss proc => proc.stake
  | .reconcile _ => .nothing

/-- Whether a process is a handler of a request. -/
def SessionProc.isHandler : SessionProc → Bool
  | .reconcile _ => false
  | .create _ | .kill _ | .dismiss _ => true

theorem stake_next (launch : Launch) :
    launch.next.stake = { Stake.nothing with started := launch.created.map (·.id) } := by
  unfold Launch.next
  cases launch.todo <;> rfl

theorem stake_rollback (created : List Session) (error : String) :
    (rollback created error).stake =
      { Stake.nothing with started := created.map (·.id) } := by
  cases created <;> rfl

/-- What is to start is held; what is gone was started or is to be marked; and what is to be
marked was killed. -/
structure Stake.Proper (stake : Stake) : Prop where
  pending : ∀ id ∈ stake.pending, stake.held = some id
  gone : ∀ id ∈ stake.gone, id ∈ stake.started ∨ stake.marked = some id
  marked : ∀ id ∈ stake.marked, stake.killed = some id

theorem SessionProc.proper (proc : SessionProc) : proc.stake.Proper := by
  cases proc with
  | create proc =>
    cases proc <;> constructor <;> simp
  | kill proc =>
    cases proc <;> constructor <;> simp
  | dismiss proc =>
    cases proc <;> constructor <;> simp
  | reconcile proc => constructor <;> simp

/-! ### The outline -/

/-- What a process relies on. -/
structure Stands (world : SessionWorld) (stake : Stake) : Prop where
  issued : ∀ id, id ∈ stake.started ∨ stake.held = some id ∨ stake.killed = some id ∨
    stake.dismissed = some id → id ≤ world.table.seq
  started : ∀ id ∈ stake.started, tmuxNameOf id ∈ world.launched
  held : ∀ id ∈ stake.held, tmuxNameOf id ∉ world.launched
  pending : ∀ id ∈ stake.pending, world.table.Running id
  gone : ∀ id ∈ stake.gone, tmuxNameOf id ∉ world.tmux
  dismissed : ∀ id ∈ stake.dismissed, ¬ world.table.Running id

/-- The started sessions that still exist have running rows. -/
structure Backed (world : SessionWorld) : Prop where
  issued : ∀ name ∈ world.launched, ∃ id ≤ world.table.seq, name = tmuxNameOf id
  running : ∀ id, tmuxNameOf id ∈ world.launched → tmuxNameOf id ∈ world.tmux →
    world.table.Running id

/-- No two launches hold one id, and none is about to start what another process marks. -/
structure Apart (one other : Stake) : Prop where
  held : ∀ id ∈ one.held, other.held ≠ some id
  marked : ∀ id ∈ one.pending, other.marked ≠ some id

/-- What holds of the world, of a request that stands somewhere, and of two of them. -/
def launchOutline : Outline SessionWorld SessionProc where
  shared := Backed
  here world proc := Stands world proc.stake ∧ proc.isHandler = true
  apart one other := Apart one.stake other.stake

theorem Backed.noOrphan {world : SessionWorld} (backed : Backed world) : NoOrphan world := by
  intro name launched alive
  obtain ⟨id, -, rfl⟩ := backed.issued name launched
  obtain ⟨row, member, rfl, running⟩ := backed.running id launched alive
  exact ⟨row, member, row.named, running⟩

/-! ### What a change to the world keeps -/

variable {world : SessionWorld} {stake : Stake}

theorem Backed.table {table : SessionTable} (backed : Backed world)
    (grows : world.table.seq ≤ table.seq)
    (running : ∀ id, tmuxNameOf id ∈ world.launched → tmuxNameOf id ∈ world.tmux →
      world.table.Running id → table.Running id) : Backed { world with table } where
  issued name launched := by
    obtain ⟨id, least, same⟩ := backed.issued name launched
    exact ⟨id, Nat.le_trans least grows, same⟩
  running id launched alive := running id launched alive (backed.running id launched alive)

theorem Stands.table {table : SessionTable} (stands : Stands world stake)
    (grows : world.table.seq ≤ table.seq)
    (pending : ∀ id ∈ stake.pending, world.table.Running id → table.Running id)
    (dismissed : ∀ id ≤ world.table.seq, table.Running id → world.table.Running id) :
    Stands { world with table } stake where
  issued id has := Nat.le_trans (stands.issued id has) grows
  started := stands.started
  held := stands.held
  pending id member := pending id member (stands.pending id member)
  gone := stands.gone
  dismissed id member running := by
    have least := stands.issued id (.inr (.inr (.inr member)))
    exact stands.dismissed id member (dismissed id least running)

/-- The id that comes next names no started session. -/
theorem Backed.fresh (backed : Backed world) :
    tmuxNameOf (world.table.seq + 1) ∉ world.launched := by
  intro launched
  obtain ⟨id, least, same⟩ := backed.issued _ launched
  cases tmuxNameOf_injective same
  exact Nat.not_succ_le_self _ least

theorem Backed.createSession (backed : Backed world) (toolID now : Int) (dir : List Char) :
    Backed { world with table := world.table.createSession toolID dir now } :=
  backed.table (Nat.le_succ _) fun _ _ _ still =>
    SessionTable.running_createSession.mpr (.inl still)

theorem Stands.createSession (stands : Stands world stake) (toolID now : Int)
    (dir : List Char) :
    Stands { world with table := world.table.createSession toolID dir now } stake := by
  refine stands.table (Nat.le_succ _)
    (fun id _ still => SessionTable.running_createSession.mpr (.inl still)) ?_
  intro id least running
  refine (SessionTable.running_createSession.mp running).resolve_right ?_
  rintro rfl
  exact Nat.not_succ_le_self _ least

theorem Backed.killSession (backed : Backed world) (name : List Char) :
    Backed (world.killSession name) where
  issued := backed.issued
  running id launched alive := backed.running id launched (List.mem_filter.mp alive).1

theorem Stands.killSession (stands : Stands world stake) (name : List Char) :
    Stands (world.killSession name) stake where
  issued := stands.issued
  started := stands.started
  held := stands.held
  pending := stands.pending
  gone id member alive := stands.gone id member (List.mem_filter.mp alive).1
  dismissed := stands.dismissed

theorem Backed.newSession {id : Nat} (backed : Backed world) (running : world.table.Running id)
    (least : id ≤ world.table.seq) : Backed (world.newSession (tmuxNameOf id)) where
  issued name launched := by
    rcases List.mem_append.mp launched with old | new
    · exact backed.issued name old
    · exact ⟨id, least, List.mem_singleton.mp new⟩
  running other launched alive := by
    by_cases same : other = id
    · exact same ▸ running
    · have different : tmuxNameOf other ∉ [tmuxNameOf id] := by
        rw [List.mem_singleton]
        exact fun equal => same (tmuxNameOf_injective equal)
      refine backed.running other ?_ ?_
      · exact (List.mem_append.mp launched).resolve_right different
      · exact (List.mem_append.mp alive).resolve_right different

theorem Stands.newSession {id : Nat} (stands : Stands world stake)
    (held : stake.held ≠ some id) (gone : stake.gone ≠ some id) :
    Stands (world.newSession (tmuxNameOf id)) stake where
  issued := stands.issued
  started other member := List.mem_append_left _ (stands.started other member)
  held other member launched := by
    rcases List.mem_append.mp launched with old | new
    · exact stands.held other member old
    · cases tmuxNameOf_injective (List.mem_singleton.mp new)
      exact held member
  pending := stands.pending
  gone other member alive := by
    rcases List.mem_append.mp alive with old | new
    · exact stands.gone other member old
    · cases tmuxNameOf_injective (List.mem_singleton.mp new)
      exact gone member
  dismissed := stands.dismissed

/-! ### What a step keeps -/

/-- A stake that holds no more than another. -/
structure Stake.Within (small big : Stake) : Prop where
  started : ∀ id ∈ small.started, id ∈ big.started
  held : ∀ id ∈ small.held, big.held = some id
  pending : ∀ id ∈ small.pending, big.pending = some id
  gone : ∀ id ∈ small.gone, big.gone = some id
  killed : ∀ id ∈ small.killed, big.killed = some id
  marked : ∀ id ∈ small.marked, big.marked = some id
  dismissed : ∀ id ∈ small.dismissed, big.dismissed = some id

theorem within_of_started {started : List Nat} {big : Stake}
    (among : ∀ id ∈ started, id ∈ big.started) :
    ({ Stake.nothing with started } : Stake).Within big :=
  ⟨among, nofun, nofun, nofun, nofun, nofun, nofun⟩

theorem within_next {launch : Launch} {big : Stake}
    (started : ∀ session ∈ launch.created, session.id ∈ big.started) :
    launch.next.stake.Within big := by
  rw [stake_next]
  exact within_of_started (by simpa using started)

theorem within_rollback {created : List Session} {big : Stake} {error : String}
    (started : ∀ session ∈ created, session.id ∈ big.started) :
    (rollback created error).stake.Within big := by
  rw [stake_rollback]
  exact within_of_started (by simpa using started)

theorem Stands.within {small big : Stake} (stands : Stands world big) (within : small.Within big) :
    Stands world small where
  issued id has := by
    refine stands.issued id ?_
    rcases has with started | held | killed | dismissed
    · exact .inl (within.started id started)
    · exact .inr (.inl (within.held id held))
    · exact .inr (.inr (.inl (within.killed id killed)))
    · exact .inr (.inr (.inr (within.dismissed id dismissed)))
  started id member := stands.started id (within.started id member)
  held id member := stands.held id (within.held id member)
  pending id member := stands.pending id (within.pending id member)
  gone id member := stands.gone id (within.gone id member)
  dismissed id member := stands.dismissed id (within.dismissed id member)

/-- The launch that inserted a row is about to start its session. -/
theorem Stands.inserted {launch : Launch} {command : List Char} {now : Int}
    (stands : Stands world (CreateSession.inserting launch command now).stake)
    (backed : Backed world) :
    Stands { world with table := world.table.createSession launch.toolID launch.workdir now }
      (CreateSession.checking launch command
        (world.table.inserted launch.toolID launch.workdir now)).stake where
  issued := by
    rintro id (member | held | killed | dismissed)
    · exact Nat.le_succ_of_le (stands.issued id (.inl member))
    · cases held
      exact Nat.le_refl _
    · cases killed
    · cases dismissed
  started := stands.started
  held := by
    rintro id ⟨⟩
    exact backed.fresh
  pending := by
    rintro id ⟨⟩
    exact SessionTable.running_createSession.mpr (.inr rfl)
  gone := nofun
  dismissed := nofun

/-- The launch that started a session goes on with it among those it started. -/
theorem Stands.starts {launch : Launch} {session : Session}
    (stands : Stands world (CreateSession.starting launch session).stake) :
    Stands (world.newSession (tmuxNameOf session.id))
      ({ launch with created := launch.created ++ [session] : Launch }.next).stake := by
  rw [stake_next, List.map_append]
  refine ⟨?_, ?_, nofun, nofun, nofun, nofun⟩
  · rintro id (member | held | killed | dismissed)
    · rcases List.mem_append.mp member with old | new
      · exact stands.issued id (.inl old)
      · exact List.mem_singleton.mp new ▸ stands.issued session.id (.inr (.inl rfl))
    · cases held
    · cases killed
    · cases dismissed
  · intro id member
    rcases List.mem_append.mp member with old | new
    · exact List.mem_append_left _ (stands.started id old)
    · exact List.mem_append_right _
        (List.mem_singleton.mpr (congrArg tmuxNameOf (List.mem_singleton.mp new)))

theorem Stands.of_killed {id : Nat} (issued : id ≤ world.table.seq) :
    Stands world { Stake.nothing with killed := some id } where
  issued := by
    rintro other (started | held | killed | dismissed)
    · cases started
    · cases held
    · cases killed
      exact issued
    · cases dismissed
  started := nofun
  held := nofun
  pending := nofun
  gone := nofun
  dismissed := nofun

theorem Stands.of_dismissed {id : Nat} (issued : id ≤ world.table.seq)
    (settled : ¬ world.table.Running id) :
    Stands world { Stake.nothing with dismissed := some id } where
  issued := by
    rintro other (started | held | killed | dismissed)
    · cases started
    · cases held
    · cases killed
    · cases dismissed
      exact issued
  started := nofun
  held := nofun
  pending := nofun
  gone := nofun
  dismissed := by
    rintro other ⟨⟩
    exact settled

variable {pool : Pool SessionWorld SessionProc} {index : Nat} {proc after : SessionProc}

/-- A step holds what it held, or the id that comes next, and newly marks only what no other
launch is about to start. -/
structure Moves (pool : Pool SessionWorld SessionProc) (index : Nat) (before after : Stake) :
    Prop where
  held : ∀ id ∈ after.held, before.held = some id ∨ id = pool.world.table.seq + 1
  pending : ∀ id ∈ after.pending, before.pending = some id ∨ id = pool.world.table.seq + 1
  marked : ∀ id ∈ after.marked, before.marked = some id ∨
    ∀ (place : Nat) (other : SessionProc), place ≠ index → pool.procs[place]? = some other →
      other.stake.pending ≠ some id

theorem moves_next (before : Stake) (launch : Launch) :
    Moves pool index before launch.next.stake := by
  rw [stake_next]
  exact ⟨nofun, nofun, nofun⟩

theorem Stake.Within.moves {small big : Stake} (within : small.Within big) :
    Moves pool index big small where
  held id member := .inl (within.held id member)
  pending id member := .inl (within.pending id member)
  marked id member := .inl (within.marked id member)

/-- A step keeps the outline when its process stands, and so does any other that is apart from
it. -/
theorem kept_of_stands (holds : launchOutline.Holds pool)
    (present : pool.procs[index]? = some proc) (backed : Backed world)
    (stands : Stands world after.stake) (handler : after.isHandler = true)
    (moves : Moves pool index proc.stake after.stake)
    (others : ∀ other : SessionProc, Stands pool.world other.stake →
      Apart proc.stake other.stake → Apart other.stake proc.stake → Stands world other.stake) :
    launchOutline.Kept pool index world after where
  shared := backed
  here := ⟨stands, handler⟩
  others := by
    intro place other different found
    obtain ⟨standing, handles⟩ := holds.here place other found
    have forth : Apart proc.stake other.stake :=
      holds.apart index place proc other (Ne.symm different) present found
    have back : Apart other.stake proc.stake :=
      holds.apart place index other proc different found present
    have held : ∀ id ∈ other.stake.held, id ≤ pool.world.table.seq := fun id member =>
      standing.issued id (.inr (.inl member))
    refine ⟨⟨others other standing forth back, handles⟩, ⟨?_, ?_⟩, ⟨?_, ?_⟩⟩
    · intro id member again
      rcases moves.held id member with old | rfl
      · exact forth.held id old again
      · exact Nat.not_succ_le_self _ (held _ again)
    · intro id member again
      rcases moves.pending id member with old | rfl
      · exact forth.marked id old again
      · have killed := other.proper.marked _ again
        exact Nat.not_succ_le_self _ (standing.issued _ (.inr (.inr (.inl killed))))
    · intro id member again
      rcases moves.held id again with old | rfl
      · exact back.held id member old
      · exact Nat.not_succ_le_self _ (held _ member)
    · intro id member again
      rcases moves.marked id again with old | free
      · exact back.marked id member old
      · exact free place other different found member

/-- A step that leaves the table and tmux and holds no more than before. -/
theorem kept_of_within (holds : launchOutline.Holds pool)
    (present : pool.procs[index]? = some proc) (table : world.table = pool.world.table)
    (tmux : world.tmux = pool.world.tmux) (launched : world.launched = pool.world.launched)
    (handler : after.isHandler = true) (within : after.stake.Within proc.stake) :
    launchOutline.Kept pool index world after := by
  have same : ∀ stake, Stands pool.world stake → Stands world stake := fun stake stands => {
    issued := table ▸ stands.issued
    started := launched ▸ stands.started
    held := launched ▸ stands.held
    pending := table ▸ stands.pending
    gone := tmux ▸ stands.gone
    dismissed := table ▸ stands.dismissed }
  have backed : Backed world :=
    ⟨by rw [table, launched]; exact holds.shared.issued,
      by rw [table, launched, tmux]; exact holds.shared.running⟩
  refine kept_of_stands holds present backed ?_ handler within.moves fun other stands _ _ =>
    same _ stands
  exact same _ ((holds.here index proc present).1.within within)

/-- A step that ends the running of a row, under an id that no other process is about to start
and that has no started session left. -/
theorem kept_of_retired {table : SessionTable} {id : Nat} (holds : launchOutline.Holds pool)
    (present : pool.procs[index]? = some proc) (seq : table.seq = pool.world.table.seq)
    (running : ∀ other, table.Running other ↔ pool.world.table.Running other ∧ other ≠ id)
    (settled : tmuxNameOf id ∈ pool.world.launched → tmuxNameOf id ∈ pool.world.tmux →
      ¬ pool.world.table.Running id)
    (free : ∀ other : SessionProc, Stands pool.world other.stake →
      Apart proc.stake other.stake → Apart other.stake proc.stake →
      other.stake.pending ≠ some id)
    (done : after.stake.pending = none) (handler : after.isHandler = true)
    (within : after.stake.Within proc.stake) :
    launchOutline.Kept pool index { pool.world with table } after := by
  have grows : pool.world.table.seq ≤ table.seq := Nat.le_of_eq seq.symm
  have shrinks : ∀ other ≤ pool.world.table.seq, table.Running other →
      pool.world.table.Running other := fun other _ still => ((running other).mp still).1
  refine kept_of_stands holds present (holds.shared.table grows ?_) ?_ handler within.moves ?_
  · intro other launched alive still
    refine (running other).mpr ⟨still, ?_⟩
    rintro rfl
    exact settled launched alive still
  · refine ((holds.here index proc present).1.within within).table grows ?_ shrinks
    rw [done]
    nofun
  · intro other stands forth back
    refine stands.table grows (fun pending member still => ?_) shrinks
    refine (running pending).mpr ⟨still, ?_⟩
    rintro rfl
    exact free other stands forth back member

/-! ### The handlers -/

theorem CreateBody.created_of_launch {body : CreateBody} {tree : FileTree} {tools : List Tool}
    {dirs : List Dir} {launch : Launch} (found : body.launch tree tools dirs = .ok launch) :
    launch.created = [] := by
  unfold CreateBody.launch at found
  split at found
  · rename_i tool dir _ _
    cases resolved : resolveSubdir tree dir.path body.subdir with
    | error error =>
      rw [resolved] at found
      cases found
    | ok workdir =>
      rw [resolved] at found
      cases found
      rfl
  · cases found

theorem kept_handleCreateSession {create next : CreateSession} (holds : launchOutline.Holds pool)
    (present : pool.procs[index]? = some (.create create))
    (stepped : handleCreateSession pool.world create .ok = some (world, next)) :
    launchOutline.Kept pool index world (.create next) := by
  have here : Stands pool.world create.stake := (holds.here index _ present).1
  -- the steps that only read, and those of the undo that do nothing
  have idle : world = pool.world → next.stake.Within create.stake →
      launchOutline.Kept pool index world (.create next) := fun same within =>
    kept_of_within holds present (same ▸ rfl) (same ▸ rfl) (same ▸ rfl) rfl within
  cases create with
  | listingTools body =>
    cases stepped
    exact idle rfl (by constructor <;> simp)
  | listingDirs body tools =>
    simp only [handleCreateSession] at stepped
    split at stepped <;> cases stepped
    · exact idle rfl (by constructor <;> simp)
    · rename_i launch found
      refine idle rfl (within_next ?_)
      rw [CreateBody.created_of_launch found]
      exact fun _ member => absurd member List.not_mem_nil
  | sampling launch command =>
    cases stepped
    exact idle rfl (by constructor <;> simp)
  | inserting launch command now =>
    cases stepped
    refine kept_of_stands holds present (holds.shared.createSession ..) (here.inserted holds.shared)
      rfl ?_ fun other stands _ _ => stands.createSession ..
    constructor <;> simp [SessionTable.inserted]
  | checking launch command session =>
    simp only [handleCreateSession] at stepped
    split at stepped
    · cases stepped
      exact idle rfl (by constructor <;> simp)
    · split at stepped <;> cases stepped <;> exact idle rfl (by constructor <;> simp)
  | skipping launch command session =>
    cases stepped
    refine kept_of_retired holds present rfl (fun _ => SessionTable.running_deleteSession) ?_ ?_ rfl
      rfl (by constructor <;> simp)
    · exact fun launched => absurd launched (here.held _ rfl)
    · exact fun other _ forth _ pending => forth.held _ rfl (other.proper.pending _ pending)
  | labelling launch command session =>
    simp only [handleCreateSession] at stepped
    split at stepped <;> cases stepped
    · exact idle rfl (by constructor <;> simp)
    · rename_i table written
      obtain ⟨seq, running⟩ := SessionTable.running_setSessionLabel written
      have same : ∀ stake, Stands pool.world stake → Stands { pool.world with table } stake :=
        fun stake stands => stands.table (Nat.le_of_eq seq.symm) (fun id _ => (running id).mpr)
          fun id _ => (running id).mp
      refine kept_of_stands holds present
        (holds.shared.table (Nat.le_of_eq seq.symm) fun id _ _ => (running id).mpr) (same _ here)
        rfl (by constructor <;> simp) fun other stands _ _ => same _ stands
  | starting launch session =>
    simp only [handleCreateSession] at stepped
    split at stepped <;> cases stepped
    · exact idle rfl (by constructor <;> simp)
    · rw [session.named]
      have backed := holds.shared.newSession (here.pending _ rfl) (here.issued _ (.inr (.inl rfl)))
      refine kept_of_stands holds present backed here.starts rfl (moves_next _ _) ?_
      intro other stands forth back
      refine stands.newSession (forth.held _ rfl) fun gone => ?_
      rcases other.proper.gone _ gone with started | marked
      · exact here.held _ rfl (stands.started _ started)
      · exact forth.marked _ rfl marked
  | dropping launch session error =>
    cases stepped
    refine kept_of_retired holds present rfl (fun _ => SessionTable.running_deleteSession) ?_ ?_ ?_
      rfl (within_rollback fun other member => List.mem_map_of_mem member)
    · exact fun launched => absurd launched (here.held _ rfl)
    · exact fun other _ forth _ pending => forth.held _ rfl (other.proper.pending _ pending)
    · exact congrArg Stake.pending (stake_rollback launch.created error)
  | killing session rest error =>
    cases stepped
    refine kept_of_stands holds present (holds.shared.killSession _) ?_ rfl
      (by constructor <;> simp) fun other stands _ _ => stands.killSession _
    refine { here.killSession session.tmuxName with gone := ?_ }
    rintro id ⟨⟩ alive
    exact absurd session.named.symm (by simpa using (List.mem_filter.mp alive).2)
  | deleting session rest error =>
    cases stepped
    refine kept_of_retired holds present rfl (fun _ => SessionTable.running_deleteSession) ?_ ?_ ?_
      rfl (within_rollback fun other member => ?_)
    · exact fun _ alive => absurd alive (here.gone _ rfl)
    · intro other stands _ _ pending
      exact stands.held _ (other.proper.pending _ pending) (here.started _ List.mem_cons_self)
    · exact congrArg Stake.pending (stake_rollback rest error)
    · exact List.mem_cons_of_mem _ (List.mem_map_of_mem member)
  | recording created =>
    cases stepped
    exact idle rfl (by constructor <;> simp)
  | announcing created =>
    cases created with
    | nil =>
      cases stepped
      exact idle rfl (by constructor <;> simp)
    | cons session rest =>
      cases stepped
      exact kept_of_within holds present rfl rfl rfl rfl
        (within_of_started fun _ => List.mem_cons_of_mem _)
  | answered response => cases stepped

theorem kept_handleKillSession {kill next : KillSession} (holds : launchOutline.Holds pool)
    (present : pool.procs[index]? = some (.kill kill))
    (settled : ∀ session, kill = .killing session → ∀ (place : Nat) (other : SessionProc),
      place ≠ index → pool.procs[place]? = some other → other.stake.pending ≠ some session.id)
    (stepped : handleKillSession pool.world kill .ok = some (world, next)) :
    launchOutline.Kept pool index world (.kill next) := by
  have here : Stands pool.world kill.stake := (holds.here index _ present).1
  cases kill with
  | reading id =>
    simp only [handleKillSession] at stepped
    split at stepped <;> cases stepped
    · exact kept_of_within holds present rfl rfl rfl rfl (by constructor <;> simp)
    · rename_i session found
      obtain ⟨row, member, rfl⟩ := SessionTable.getSession_eq_some found
      exact kept_of_stands holds present holds.shared
        (.of_killed (pool.world.table.issued row member)) rfl (by constructor <;> simp)
        fun other stands _ _ => stands
  | killing session =>
    cases stepped
    refine kept_of_stands holds present (holds.shared.killSession _) ?_ rfl
      ⟨by simp, by simp, ?_⟩
      fun other stands _ _ => stands.killSession _
    · refine { here.killSession session.tmuxName with gone := ?_ }
      rintro id ⟨⟩ alive
      exact absurd session.named.symm (by simpa using (List.mem_filter.mp alive).2)
    · rintro id ⟨⟩
      exact .inr (settled session rfl)
  | marking session =>
    cases stepped
    refine kept_of_retired holds present rfl
      (fun _ => SessionTable.running_setSessionStatus_dead) ?_ ?_ rfl rfl
      (by constructor <;> simp)
    · exact fun _ alive => absurd alive (here.gone _ rfl)
    · exact fun other _ _ back pending => back.marked _ pending rfl
  | announcing session =>
    cases stepped
    exact kept_of_within holds present rfl rfl rfl rfl (by constructor <;> simp)
  | answered response => cases stepped

theorem kept_handleDismissSession {dismiss next : DismissSession}
    (holds : launchOutline.Holds pool) (present : pool.procs[index]? = some (.dismiss dismiss))
    (stepped : handleDismissSession pool.world dismiss .ok = some (world, next)) :
    launchOutline.Kept pool index world (.dismiss next) := by
  have here : Stands pool.world dismiss.stake := (holds.here index _ present).1
  cases dismiss with
  | reading id =>
    simp only [handleDismissSession] at stepped
    split at stepped
    · cases stepped
      exact kept_of_within holds present rfl rfl rfl rfl (by constructor <;> simp)
    · rename_i session found
      split at stepped <;> cases stepped
      · exact kept_of_within holds present rfl rfl rfl rfl (by constructor <;> simp)
      · rename_i dead
        have settled := SessionTable.not_running_of_getSession found dead
        obtain ⟨row, member, rfl⟩ := SessionTable.getSession_eq_some found
        exact kept_of_stands holds present holds.shared
          (.of_dismissed (pool.world.table.issued row member) settled) rfl
          (by constructor <;> simp) fun other stands _ _ => stands
  | deleting session =>
    cases stepped
    have settled := here.dismissed _ rfl
    refine kept_of_retired holds present rfl (fun _ => SessionTable.running_deleteSession) ?_ ?_ rfl
      rfl (by constructor <;> simp)
    · exact fun _ _ => settled
    · exact fun other stands _ _ pending => settled (stands.pending _ pending)
  | announcing session =>
    cases stepped
    exact kept_of_within holds present rfl rfl rfl rfl (by constructor <;> simp)
  | answered response => cases stepped

/-! ### Runs of the handlers -/

/-- The id whose tmux session a process is about to kill on a request. -/
def SessionProc.aim : SessionProc → Option Nat
  | .kill (.killing session) => some session.id
  | _ => none

/-- No kill reaches tmux for a row whose launch is still about to start its tmux session. -/
def KillsStarted (pool : Pool SessionWorld SessionProc) :
    Move SessionRequest Outcome SessionOutside → Prop
  | .advance index _ => ∀ id ∈ pool.procs[index]?.bind SessionProc.aim,
      ∀ proc ∈ pool.procs, proc.stake.pending ≠ some id
  | _ => True

instance KillsStarted.decidable (pool : Pool SessionWorld SessionProc) :
    DecidablePred (KillsStarted pool)
  | .arrive _ => .isTrue trivial
  | .occur _ => .isTrue trivial
  | .advance index _ => inferInstanceAs (Decidable (∀ id ∈ pool.procs[index]?.bind SessionProc.aim,
      ∀ proc ∈ pool.procs, proc.stake.pending ≠ some id))

/-- The outline is kept by every step of a handler. -/
theorem kept_serveSession {outcome : Outcome} (holds : launchOutline.Holds pool)
    (permitted : HandlersOnly (.advance index outcome))
    (started : KillsStarted pool (.advance index outcome))
    (present : pool.procs[index]? = some proc)
    (stepped : serveSession pool.world proc outcome = some (world, after)) :
    launchOutline.Kept pool index world after := by
  cases outcome with
  | fails error => exact permitted.elim
  | ok =>
    cases proc with
    | create create =>
      obtain ⟨⟨_, next⟩, taken, ⟨⟩⟩ := Option.map_eq_some_iff.mp stepped
      exact kept_handleCreateSession holds present taken
    | kill kill =>
      obtain ⟨⟨_, next⟩, taken, ⟨⟩⟩ := Option.map_eq_some_iff.mp stepped
      refine kept_handleKillSession holds present ?_ taken
      rintro session rfl place other - found
      rw [KillsStarted, present] at started
      exact started session.id rfl other (List.mem_of_getElem? found)
    | dismiss dismiss =>
      obtain ⟨⟨_, next⟩, taken, ⟨⟩⟩ := Option.map_eq_some_iff.mp stepped
      exact kept_handleDismissSession holds present taken
    | reconcile pass => cases (holds.here index _ present).2

theorem launchOutline_run (world : SessionWorld)
    {moves : List (Move SessionRequest Outcome SessionOutside)}
    {final : Pool SessionWorld SessionProc}
    (run : Run sessionMachine.next (fun pool move => HandlersOnly move ∧ KillsStarted pool move)
      world.quiet moves final) : launchOutline.Holds final := by
  refine launchOutline.holds_of_run ?_ ?_ ?_ ?_ run
  · intro pool request holds permitted
    have nothing : (enterSession request).stake = .nothing := by
      cases request with
      | create body => cases body <;> rfl
      | kill id => cases id <;> rfl
      | dismiss id => cases id <;> rfl
      | reconcile => rfl
    refine ⟨⟨?_, ?_⟩, fun proc _ => ⟨?_, ?_⟩⟩
    · change Stands _ (enterSession request).stake
      rw [nothing]
      constructor <;> simp
    · cases request with
      | create body => cases body <;> rfl
      | kill id => cases id <;> rfl
      | dismiss id => cases id <;> rfl
      | reconcile => exact permitted.1.elim
    · change Apart (enterSession request).stake _
      rw [nothing]
      constructor <;> simp
    · change Apart _ (enterSession request).stake
      rw [nothing]
      constructor <;> simp
  · intro pool index outcome proc after next holds permitted present stepped
    exact kept_serveSession holds permitted.1 permitted.2 present stepped
  · intro pool event after holds permitted occurred
    cases event with
    | wait duration =>
      cases occurred
      exact ⟨⟨holds.shared.issued, holds.shared.running⟩, fun place proc found =>
        have stands := (holds.here place proc found).1
        ⟨⟨stands.issued, stands.started, stands.held, stands.pending, stands.gone,
          stands.dismissed⟩, (holds.here place proc found).2⟩, holds.apart⟩
    | exits name =>
      cases occurred
      exact ⟨holds.shared.killSession name, fun place proc found =>
        ⟨(holds.here place proc found).1.killSession name, (holds.here place proc found).2⟩,
        holds.apart⟩
    | starts name => exact permitted.1.elim
  · exact launchOutline.holds_empty ⟨nofun, nofun⟩

/-- In a run of launches, kills and dismissals in which no kill reaches tmux ahead of the launch
it is about, no started session is orphaned in any state. -/
theorem started_sessions_not_orphaned (world : SessionWorld)
    (moves : List (Move SessionRequest Outcome SessionOutside))
    (final : Pool SessionWorld SessionProc)
    (run : Run sessionMachine.next (fun pool move => HandlersOnly move ∧ KillsStarted pool move)
      world.quiet moves final) : NoOrphan final.world :=
  (launchOutline_run world run).shared.noOrphan

/-- A launch as far as the check of its row's name, and the calls after it. -/
def launchHead : List (Move SessionRequest Outcome SessionOutside) :=
  .arrive (.create (some ⟨1, 1, []⟩)) :: List.replicate 4 (.advance 0 .ok)

/-- The rest of the launch. -/
def launchTail : List (Move SessionRequest Outcome SessionOutside) :=
  List.replicate 5 (.advance 0 .ok)

/-- A kill of the first session, from its arrival to its answer. -/
def killFirst : List (Move SessionRequest Outcome SessionOutside) :=
  .arrive (.kill (some 1)) :: List.replicate 4 (.advance 1 .ok)

/-- Another launch. -/
def launchSecond : List (Move SessionRequest Outcome SessionOutside) :=
  .arrive (.create (some ⟨1, 1, []⟩)) :: List.replicate 9 (.advance 2 .ok)

/-- A launch that is killed once it has started, and one that stays. -/
theorem late_kill_not_orphaned :
    ∃ final, exec sessionMachine.next idleWorld.quiet
        (launchHead ++ launchTail ++ killFirst ++ launchSecond) = some final ∧
      final.world.launched = ["mm-1".toList, "mm-2".toList] ∧
      final.world.tmux = ["mm-2".toList] ∧ NoOrphan final.world := by
  refine ⟨_, rfl, by decide, by decide, ?_⟩
  exact started_sessions_not_orphaned idleWorld
    (launchHead ++ launchTail ++ killFirst ++ launchSecond) _ (Run.of_exec rfl (by decide))

/-- A kill between the insertion of the row and the start of its tmux session leaves the session
that starts afterwards without a running row. -/
theorem early_kill_orphans :
    ¬ ∀ (world : SessionWorld) (moves : List (Move SessionRequest Outcome SessionOutside))
        (final : Pool SessionWorld SessionProc),
        Run sessionMachine.next (fun _ move => HandlersOnly move) world.quiet moves final →
        (∀ proc ∈ final.procs, proc.finished = true) → NoOrphan final.world := by
  intro always
  have run : Run sessionMachine.next (fun _ move => HandlersOnly move) idleWorld.quiet
      (launchHead ++ killFirst ++ launchTail) _ := Run.of_exec rfl (by decide)
  have none := always idleWorld _ _ run (by decide)
  exact absurd none (by decide)

end Multimux
