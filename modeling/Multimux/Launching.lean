/-
This file follows one launch request from its first call to its answer, with
nothing else running. Any store or tmux call may fail; `CreateSession` of tmux
is here the two commands that can fail in it. A launch is all or nothing: it
answers with an error and leaves rows, tmux sessions, history and events as they
were, or it starts one session for each command of the tool and says so.
-/

import Multimux.Sessions

namespace Multimux

/-! ### What the surroundings decide -/

/-- The calls of a launch that may fail. -/
inductive LaunchCall
  | listTools
  | listDirs
  | createSession
  | isAlive
  | deleteSession
  | setSessionLabel
  | newSession
  | respawnPane
  | killSession
  | recordSubdir
  deriving DecidableEq

/-- The clock and the failures that a launch meets, by the number of calls before. -/
structure Surroundings where
  now : Nat → Int
  fails : LaunchCall → Nat → Option String

/-- A session of tmux, with the directory and the command it was started with. -/
structure TmuxSession where
  name : List Char
  dir : List Char
  command : List Char

/-- The store, the file tree, the tmux sessions and the events. `calls` is a history variable,
the calls made so far with their errors. -/
structure LaunchWorld where
  tools : List Tool
  dirs : List Dir
  tree : FileTree
  table : SessionTable
  subdirs : List SubdirRow
  tmux : List TmuxSession
  events : List SessionEvent
  calls : List (LaunchCall × Option String)

namespace LaunchWorld

/-- The names that tmux holds. -/
def names (world : LaunchWorld) : List (List Char) := world.tmux.map TmuxSession.name

/-- A call and its error are recorded. -/
def log (world : LaunchWorld) (call : LaunchCall) (error : Option String) : LaunchWorld :=
  { world with calls := world.calls ++ [(call, error)] }

/-- A call with the effect it has unless the surroundings fail it; returns its error. -/
def attempt (world : LaunchWorld) (env : Surroundings) (call : LaunchCall)
    (effect : Except String LaunchWorld) : LaunchWorld × Option String :=
  match env.fails call world.calls.length, effect with
  | some error, _ => (world.log call (some error), some error)
  | none, .error error => (world.log call (some error), some error)
  | none, .ok next => (next.log call none, none)

/-! ### The store and tmux -/

/-- The session that the next insert would return. -/
def inserted (world : LaunchWorld) (env : Surroundings) (toolID : Int) (workdir : List Char) :
    Session :=
  world.table.inserted toolID workdir (env.now world.calls.length)

/-- The row of a new session. -/
def insertRow (world : LaunchWorld) (env : Surroundings) (toolID : Int) (workdir : List Char) :
    LaunchWorld × Option String :=
  world.attempt env .createSession (.ok { world with
    table := world.table.createSession toolID workdir (env.now world.calls.length) })

/-- The row is deleted again. -/
def deleteRow (world : LaunchWorld) (env : Surroundings) (id : Nat) :
    LaunchWorld × Option String :=
  world.attempt env .deleteSession (.ok { world with table := world.table.deleteSession id })

/-- The label of the row. -/
def setLabel (world : LaunchWorld) (env : Surroundings) (id : Nat) (label : List Char) :
    LaunchWorld × Option String :=
  world.attempt env .setSessionLabel
    (match world.table.setSessionLabel id label with
    | some table => .ok { world with table }
    | none => .error "store: not found")

/-- `IsAlive`; a check that fails to reach tmux finds no session. -/
def isAlive (world : LaunchWorld) (env : Surroundings) (name : List Char) : LaunchWorld × Bool :=
  let error := env.fails .isAlive world.calls.length
  (world.log .isAlive error, error.isNone && name ∈ world.names)

/-- `KillSession`, which takes a session that is already gone for killed. -/
def killSession (world : LaunchWorld) (env : Surroundings) (name : List Char) :
    LaunchWorld × Option String :=
  world.attempt env .killSession
    (.ok { world with tmux := world.tmux.filter (·.name ≠ name) })

/-- `tmux new-session`, which a held name makes fail. -/
def newSession (world : LaunchWorld) (env : Surroundings) (name dir : List Char) :
    LaunchWorld × Option String :=
  world.attempt env .newSession
    (if name ∈ world.names then .error (duplicateSession name)
    else .ok { world with tmux := world.tmux ++ [⟨name, dir, []⟩] })

/-- `tmux respawn-pane`, which runs the command in the session. -/
def respawnPane (world : LaunchWorld) (env : Surroundings) (name command : List Char) :
    LaunchWorld × Option String :=
  world.attempt env .respawnPane (.ok { world with
    tmux := world.tmux.map fun pane => if pane.name = name then { pane with command } else pane })

/-- `CreateSession` of tmux. The fresh session goes with a command that does not start. -/
def createTmux (world : LaunchWorld) (env : Surroundings) (name dir command : List Char) :
    LaunchWorld × Option String :=
  match world.newSession env name dir with
  | (world, some error) => (world, some error)
  | (world, none) =>
    if command = [] then (world, none)
    else
      match world.respawnPane env name command with
      | (world, some error) => ((world.killSession env name).1, some error)
      | (world, none) => (world, none)

/-! ### The handler -/

/-- `createSessionRow`, which passes over the names that tmux holds; `none` if the fuel does not
last. -/
def createSessionRow (env : Surroundings) (toolID : Int) (workdir : List Char) :
    Nat → LaunchWorld → Option (LaunchWorld × Except String Session)
  | 0, _ => none
  | fuel + 1, world =>
    let session := world.inserted env toolID workdir
    match world.insertRow env toolID workdir with
    | (world, some error) => some (world, .error error)
    | (world, none) =>
      match world.isAlive env session.tmuxName with
      | (world, false) => some (world, .ok session)
      | (world, true) =>
        match world.deleteRow env session.id with
        | (world, some error) => some (world, .error error)
        | (world, none) => createSessionRow env toolID workdir fuel world

/-- The undo loop over the sessions created. -/
def rollback (world : LaunchWorld) (env : Surroundings) (created : List Session) : LaunchWorld :=
  created.foldl (fun world session =>
    ((world.killSession env session.tmuxName).1.deleteRow env session.id).1) world

/-- The label of a session, which only the sessions of a group get. -/
def labelSession (world : LaunchWorld) (env : Surroundings) (group : Bool) (session : Session)
    (command : List Char) : LaunchWorld × Except String Session :=
  if group then
    match world.setLabel env session.id (commandLabel command) with
    | (world, some error) => (world, .error error)
    | (world, none) => (world, .ok { session with label := commandLabel command })
  else (world, .ok session)

/-- One turn of the loop over the commands, up to the undo of the turns before. -/
def launchCommand (world : LaunchWorld) (env : Surroundings) (fuel : Nat) (launch : Launch)
    (command : List Char) : Option (LaunchWorld × Except String Session) :=
  match createSessionRow env launch.toolID launch.workdir fuel world with
  | none => none
  | some (world, .error error) => some (world, .error error)
  | some (world, .ok session) =>
    match world.labelSession env launch.group session command with
    | (world, .error error) => some ((world.deleteRow env session.id).1, .error error)
    | (world, .ok session) =>
      match world.createTmux env session.tmuxName launch.workdir command with
      | (world, some error) => some ((world.deleteRow env session.id).1, .error error)
      | (world, none) => some (world, .ok session)

/-- The sessions of a launch, one command after the other, up to the first error. -/
def launchCommands (env : Surroundings) (fuel : Nat) (launch : Launch) :
    List (List Char) → LaunchWorld → List Session →
      Option (LaunchWorld × Except String (List Session))
  | [], world, created => some (world, .ok created)
  | command :: rest, world, created =>
    match world.launchCommand env fuel launch command with
    | none => none
    | some (world, .error error) => some (world.rollback env created, .error error)
    | some (world, .ok session) =>
      launchCommands env fuel launch rest world (created ++ [session])

/-- The subdirectory is remembered. -/
def record (world : LaunchWorld) (env : Surroundings) (dirID : Int) (subdir : List Char) :
    LaunchWorld × Option String :=
  world.attempt env .recordSubdir (.ok { world with
    subdirs := recordSubdir world.subdirs dirID subdir (env.now world.calls.length) })

/-- `handleCreateSession`, of a body that does not parse too; `none` if the fuel does not
last. -/
def handleCreateSession (world : LaunchWorld) (env : Surroundings) (fuel : Nat) :
    Option CreateBody → Option (LaunchWorld × Response)
  | none => some (world, ⟨400, some "bad body"⟩)
  | some body =>
    match world.attempt env .listTools (.ok world) with
    | (world, some error) => some (world, ⟨500, some error⟩)
    | (world, none) =>
      match world.attempt env .listDirs (.ok world) with
      | (world, some error) => some (world, ⟨500, some error⟩)
      | (world, none) =>
        match body.launch world.tree world.tools world.dirs with
        | .error error => some (world, ⟨400, some error⟩)
        | .ok launch =>
          match launchCommands env fuel launch launch.todo world [] with
          | none => none
          | some (world, .error error) => some (world, ⟨500, some error⟩)
          | some (world, .ok created) =>
            -- A failed history write is dropped: the sessions exist.
            let world := (world.record env body.dirID body.subdir).1
            some ({ world with events := world.events ++ created.map .created }, ⟨201, none⟩)

end LaunchWorld

/-! ### Single calls -/

/-- The calls that a launch cannot do without. -/
def LaunchCall.aborts : LaunchCall → Bool
  | .listTools | .listDirs | .createSession | .setSessionLabel | .newSession | .respawnPane => true
  | .isAlive | .deleteSession | .killSession | .recordSubdir => false

/-- The deletes and kills, of which the undo is made, succeed. -/
structure Surroundings.Undoes (env : Surroundings) : Prop where
  deletes : ∀ call, env.fails .deleteSession call = none
  kills : ∀ call, env.fails .killSession call = none

/-- The row as it is stored. -/
def Session.row (session : Session) : SessionRow :=
  { session with createdAt := .format session.createdAt }

namespace LaunchWorld

/-- A call that the launch cannot do without has failed. -/
def aborted (world : LaunchWorld) : Bool :=
  world.calls.any fun made => made.1.aborts && made.2.isSome

theorem aborted_log (world : LaunchWorld) (call : LaunchCall) (error : Option String) :
    (world.log call error).aborted = (world.aborted || (call.aborts && error.isSome)) := by
  simp [aborted, log]

variable {env : Surroundings}

theorem deleteRow_eq (undoes : env.Undoes) (world : LaunchWorld) (id : Nat) :
    world.deleteRow env id =
      (({ world with table := world.table.deleteSession id } : LaunchWorld).log .deleteSession
        none, none) := by
  unfold deleteRow attempt
  rw [undoes.deletes]

theorem killSession_eq (undoes : env.Undoes) (world : LaunchWorld) (name : List Char) :
    world.killSession env name =
      (({ world with tmux := world.tmux.filter (·.name ≠ name) } : LaunchWorld).log .killSession
        none, none) := by
  unfold killSession attempt
  rw [undoes.kills]

/-! ### What a launch adds -/

/-- The second world is the first one with new sessions, under fresh ids, and new tmux
sessions. -/
structure Grown (world next : LaunchWorld) (sessions : List Session)
    (panes : List TmuxSession) : Prop where
  rows : next.table.rows = world.table.rows ++ sessions.map Session.row
  tmux : next.tmux = world.tmux ++ panes
  subdirs : next.subdirs = world.subdirs
  events : next.events = world.events
  fresh : ∀ session ∈ sessions, world.table.seq < session.id
  seq : world.table.seq ≤ next.table.seq

theorem Grown.refl (world : LaunchWorld) : world.Grown world [] [] :=
  ⟨by simp, by simp, rfl, rfl, by simp, Nat.le_refl _⟩

theorem Grown.trans {world middle next : LaunchWorld} {first second : List Session}
    {before after : List TmuxSession} (one : world.Grown middle first before)
    (other : middle.Grown next second after) :
    world.Grown next (first ++ second) (before ++ after) where
  rows := by rw [other.rows, one.rows, List.map_append, List.append_assoc]
  tmux := by rw [other.tmux, one.tmux, List.append_assoc]
  subdirs := other.subdirs.trans one.subdirs
  events := other.events.trans one.events
  fresh session member := by
    rcases List.mem_append.mp member with old | new
    · exact one.fresh session old
    · exact Nat.lt_of_le_of_lt one.seq (other.fresh session new)
  seq := Nat.le_trans one.seq other.seq

theorem Grown.log {world next : LaunchWorld} {sessions : List Session} {panes : List TmuxSession}
    (grown : world.Grown next sessions panes) (call : LaunchCall) (error : Option String) :
    world.Grown (next.log call error) sessions panes :=
  ⟨grown.rows, grown.tmux, grown.subdirs, grown.events, grown.fresh, grown.seq⟩

/-- The rows from before keep their ids apart from the new ones. -/
theorem Grown.old_id {world next : LaunchWorld} {sessions : List Session}
    {panes : List TmuxSession} (grown : world.Grown next sessions panes) {row : SessionRow}
    (old : row ∈ world.table.rows) {session : Session} (new : session ∈ sessions) :
    row.id ≠ session.id :=
  Nat.ne_of_lt (Nat.lt_of_le_of_lt (world.table.issued row old) (grown.fresh session new))

/-- Without the row of its last session. -/
theorem Grown.without {world next : LaunchWorld} {session : Session} {panes : List TmuxSession}
    (grown : world.Grown next [session] panes) :
    world.Grown { next with table := next.table.deleteSession session.id } [] panes := by
  refine ⟨?_, grown.tmux, grown.subdirs, grown.events, (fun _ none => by cases none), grown.seq⟩
  show next.table.rows.filter (·.id ≠ session.id) = _
  rw [grown.rows, List.filter_append]
  have kept : world.table.rows.filter (fun row => row.id ≠ session.id) = world.table.rows :=
    List.filter_eq_self.mpr fun row old =>
      decide_eq_true (grown.old_id old (List.mem_singleton_self _))
  rw [kept]
  simp [Session.row]

theorem Grown.delete {world next : LaunchWorld} {session : Session}
    {panes : List TmuxSession} (undoes : env.Undoes)
    (grown : world.Grown next [session] panes) :
    world.Grown (next.deleteRow env session.id).1 [] panes := by
  rw [deleteRow_eq undoes]
  exact grown.without.log .deleteSession none

/-- With another label in the row of its last session. -/
theorem Grown.relabel {world next : LaunchWorld} {session : Session} {panes : List TmuxSession}
    (grown : world.Grown next [session] panes) {label : List Char} {table : SessionTable}
    (written : next.table.setSessionLabel session.id label = some table) :
    world.Grown { next with table } [{ session with label }] panes := by
  unfold SessionTable.setSessionLabel at written
  split at written
  · cases written
    refine ⟨?_, grown.tmux, grown.subdirs, grown.events, ?_, grown.seq⟩
    · show next.table.rows.map _ = _
      rw [grown.rows, List.map_append]
      have kept : world.table.rows.map (fun row =>
          if row.id = session.id then { row with label } else row) = world.table.rows := by
        refine (List.map_congr_left fun row old => ?_).trans (List.map_id' _)
        exact if_neg (grown.old_id old (List.mem_singleton_self _))
      rw [kept]
      simp [Session.row]
    · intro other member
      cases List.mem_singleton.mp member
      exact grown.fresh session (List.mem_singleton_self _)
  · cases written

/-- What the undo of a list of sessions leaves. -/
structure Undone (world next : LaunchWorld) (sessions : List Session) : Prop where
  rows : next.table.rows = world.table.rows.filter (·.id ∉ sessions.map Session.id)
  tmux : next.tmux = world.tmux.filter (·.name ∉ sessions.map Session.tmuxName)
  subdirs : next.subdirs = world.subdirs
  events : next.events = world.events
  seq : next.table.seq = world.table.seq
  aborted : next.aborted = world.aborted

theorem rollback_undone (undoes : env.Undoes) (world : LaunchWorld) (sessions : List Session) :
    world.Undone (world.rollback env sessions) sessions := by
  induction sessions generalizing world with
  | nil => exact ⟨by simp [rollback], by simp [rollback], rfl, rfl, rfl, rfl⟩
  | cons session rest inductionHypothesis =>
    have later := inductionHypothesis
      ((world.killSession env session.tmuxName).1.deleteRow env session.id).1
    refine ⟨later.rows.trans ?_, later.tmux.trans ?_, later.subdirs.trans ?_,
      later.events.trans ?_, later.seq.trans ?_, later.aborted.trans ?_⟩ <;>
      rw [deleteRow_eq undoes, killSession_eq undoes]
    · show (world.table.rows.filter (·.id ≠ session.id)).filter _ = _
      rw [List.filter_filter]
      refine List.filter_congr fun row _ => ?_
      rw [Bool.eq_iff_iff, Bool.and_eq_true, decide_eq_true_iff, decide_eq_true_iff,
        decide_eq_true_iff, List.map_cons, List.mem_cons, not_or]
      exact and_comm
    · show (world.tmux.filter (·.name ≠ session.tmuxName)).filter _ = _
      rw [List.filter_filter]
      refine List.filter_congr fun pane _ => ?_
      rw [Bool.eq_iff_iff, Bool.and_eq_true, decide_eq_true_iff, decide_eq_true_iff,
        decide_eq_true_iff, List.map_cons, List.mem_cons, not_or]
      exact and_comm
    · rfl
    · rfl
    · rfl
    · simp [aborted, log, LaunchCall.aborts]

/-- The undo takes back what was added. -/
theorem Grown.rollback {world next : LaunchWorld} {sessions : List Session}
    {panes : List TmuxSession} (undoes : env.Undoes) (grown : world.Grown next sessions panes)
    (named : panes.map TmuxSession.name = sessions.map Session.tmuxName)
    (unheld : ∀ session ∈ sessions, session.tmuxName ∉ world.names) :
    world.Grown (next.rollback env sessions) [] [] := by
  have undone := next.rollback_undone undoes sessions
  refine ⟨undone.rows.trans ?_, undone.tmux.trans ?_, undone.subdirs.trans grown.subdirs,
    undone.events.trans grown.events, (fun _ none => by cases none),
    undone.seq ▸ grown.seq⟩
  · rw [grown.rows, List.filter_append, List.map_nil]
    congr 1
    · refine List.filter_eq_self.mpr fun row old => decide_eq_true fun removed => ?_
      obtain ⟨session, member, same⟩ := List.mem_map.mp removed
      exact grown.old_id old member same.symm
    · refine List.filter_eq_nil_iff.mpr fun row new => ?_
      obtain ⟨session, member, rfl⟩ := List.mem_map.mp new
      simpa [Session.row] using ⟨session, member, rfl⟩
  · rw [grown.tmux, List.filter_append]
    congr 1
    · refine List.filter_eq_self.mpr fun pane old => decide_eq_true fun removed => ?_
      obtain ⟨session, member, same⟩ := List.mem_map.mp removed
      exact unheld session member (List.mem_map.mpr ⟨pane, old, same.symm⟩)
    · refine List.filter_eq_nil_iff.mpr fun pane new => ?_
      rw [← named]
      simpa using ⟨pane, new, rfl⟩

/-! ### One command -/

/-- A session as the launch asks for it. -/
structure Wanted (launch : Launch) (session : Session) : Prop where
  toolId : session.toolId = launch.toolID
  dir : session.dir = launch.workdir
  status : session.status = .running

/-- A check changes nothing. -/
theorem isAlive_grown {world next checked : LaunchWorld} {sessions : List Session}
    {panes : List TmuxSession} (grown : world.Grown next sessions panes) {name : List Char}
    {alive : Bool} (done : next.isAlive env name = (checked, alive)) :
    world.Grown checked sessions panes ∧ checked.aborted = next.aborted ∧
      (alive = true → name ∈ next.names) := by
  cases done
  refine ⟨grown.log _ _, ?_, fun alive => ?_⟩
  · simp [aborted_log, LaunchCall.aborts]
  · exact of_decide_eq_true (Bool.and_eq_true_iff.mp alive).2

/-- The tmux session of a session that a launch started. -/
def pane (launch : Launch) (session : Session) (command : List Char) : TmuxSession :=
  ⟨session.tmuxName, launch.workdir, command⟩

/-- What the sessions started so far have in common. -/
structure Started (world next : LaunchWorld) (launch : Launch) (created : List Session)
    (panes : List TmuxSession) : Prop where
  grown : world.Grown next created panes
  named : panes.map TmuxSession.name = created.map Session.tmuxName
  unheld : ∀ session ∈ created, session.tmuxName ∉ world.names
  wanted : ∀ session ∈ created, Wanted launch session

theorem Started.refl (world : LaunchWorld) (launch : Launch) : world.Started world launch [] [] :=
  ⟨.refl world, rfl, (fun _ none => by cases none), fun _ none => by cases none⟩

/-- The names of the sessions started so far come from ids already issued. -/
theorem Started.covers {world middle : LaunchWorld} {launch : Launch} {created : List Session}
    {panes : List TmuxSession} (started : world.Started middle launch created panes) {id : Nat}
    (later : middle.table.seq < id) (held : tmuxNameOf id ∈ middle.names) :
    tmuxNameOf id ∈ world.names := by
  rw [names, started.grown.tmux, List.map_append, started.named] at held
  rcases List.mem_append.mp held with old | new
  · exact old
  · obtain ⟨session, member, same⟩ := List.mem_map.mp new
    have stored : session.row ∈ middle.table.rows := by
      rw [started.grown.rows]
      exact List.mem_append_right _ (List.mem_map_of_mem member)
    have issued : session.id ≤ middle.table.seq := middle.table.issued session.row stored
    rw [tmuxNameOf_injective (session.named.symm.trans same)] at issued
    exact absurd later (Nat.not_lt_of_le issued)

/-- Nothing of what a launch could change is changed. -/
structure Untouched (world final : LaunchWorld) : Prop where
  rows : final.table.rows = world.table.rows
  tmux : final.tmux = world.tmux
  subdirs : final.subdirs = world.subdirs
  events : final.events = world.events

/-- The launch added one running row for each command, each with a tmux session of its own, and
announced each. -/
structure Launched (world final : LaunchWorld) (tool : Tool) (workdir : List Char)
    (sessions : List Session) : Prop where
  count : sessions.length = (splitCommand tool.command).length
  running : ∀ session ∈ sessions, session.status = .running ∧ session.toolId = tool.id ∧
    session.dir = workdir
  rows : final.table.rows = world.table.rows ++ sessions.map Session.row
  tmux : final.tmux = world.tmux ++ List.zipWith
    (fun session command => ⟨session.tmuxName, workdir, command⟩) sessions
    (splitCommand tool.command)
  unheld : ∀ session ∈ sessions, session.tmuxName ∉ world.names
  distinct : (sessions.map Session.tmuxName).Nodup
  events : final.events = world.events ++ sessions.map .created

/-- The rows of one table have names of their own. -/
theorem Grown.distinct {world next : LaunchWorld} {sessions : List Session}
    {panes : List TmuxSession} (grown : world.Grown next sessions panes) :
    (sessions.map Session.tmuxName).Nodup := by
  have ordered := next.table.ordered
  rw [grown.rows] at ordered
  have ids := List.pairwise_map.mp (List.pairwise_append.mp ordered).2.1
  refine List.pairwise_map.mpr (ids.imp fun {one other} before same => ?_)
  rw [one.named, other.named] at same
  exact Nat.ne_of_lt before (tmuxNameOf_injective same)

/-- How a launch ends: with an error and everything as before, or with a session for each command
of the tool. -/
structure Settled (world final : LaunchWorld) (tool : Tool) (workdir : List Char)
    (response : Response) : Prop where
  failed : final.aborted = true →
    response.status = 500 ∧ (∃ error, response.error = some error) ∧ world.Untouched final
  succeeded : final.aborted = false →
    response = ⟨201, none⟩ ∧ ∃ sessions, world.Launched final tool workdir sessions
  survives : ∀ pane ∈ world.tmux, pane ∈ final.tmux

theorem Started.launched {world next final : LaunchWorld} {tool : Tool} {launch : Launch}
    {sessions : List Session} (count : sessions.length = launch.todo.length)
    (asked : launch.toolID = tool.id) (todo : launch.todo = splitCommand tool.command)
    (started : world.Started next launch sessions
      (List.zipWith (pane launch) sessions launch.todo))
    (table : final.table = next.table) (tmux : final.tmux = next.tmux)
    (events : final.events = next.events ++ sessions.map .created) :
    world.Launched final tool launch.workdir sessions where
  count := by rw [count, todo]
  running session member :=
    have wanted := started.wanted session member
    ⟨wanted.status, wanted.toolId.trans asked, wanted.dir⟩
  rows := by rw [table, started.grown.rows]
  tmux := by
    rw [tmux, started.grown.tmux, todo]
    rfl
  unheld := started.unheld
  distinct := started.grown.distinct
  events := by rw [events, started.grown.events]

end LaunchWorld

/-! ### The search of a name -/

/-- The statements of the store that put in a row and take it out succeed. -/
structure Surroundings.Stores (env : Surroundings) : Prop where
  inserts : ∀ call, env.fails .createSession call = none
  deletes : ∀ call, env.fails .deleteSession call = none

namespace LaunchWorld

/-- One turn of the search: its name is free and the row stays, or it is held and the row gives
way. -/
theorem createSessionRow_turn (stores : env.Stores) (toolID : Int) (workdir : List Char)
    (world : LaunchWorld) :
    (∃ next session, (∀ fuel, createSessionRow env toolID workdir (fuel + 1) world =
        some (next, .ok session)) ∧ world.Grown next [session] [] ∧
      ((∀ call, env.fails .isAlive call = none) → session.tmuxName ∉ world.names)) ∨
    tmuxNameOf (world.table.seq + 1) ∈ world.names ∧
      ∃ next, (∀ fuel, createSessionRow env toolID workdir (fuel + 1) world =
        createSessionRow env toolID workdir fuel next) ∧ world.Grown next [] [] ∧
      next.table.seq = world.table.seq + 1 := by
  obtain ⟨inserted, inserting, grown, seq⟩ : ∃ inserted,
      world.insertRow env toolID workdir = (inserted, none) ∧
      world.Grown inserted [world.inserted env toolID workdir] [] ∧
      inserted.table.seq = world.table.seq + 1 := by
    unfold insertRow attempt
    rw [stores.inserts]
    refine ⟨_, rfl, ⟨rfl, (List.append_nil _).symm, rfl, rfl, ?_, Nat.le_succ _⟩, rfl⟩
    intro session member
    cases List.mem_singleton.mp member
    exact Nat.lt_succ_self _
  have names : inserted.names = world.names := by
    rw [LaunchWorld.names, grown.tmux, List.append_nil]
    rfl
  cases checking : inserted.isAlive env (world.inserted env toolID workdir).tmuxName with
  | mk checked alive =>
    obtain ⟨grown, -, held⟩ := isAlive_grown grown checking
    cases alive with
    | false =>
      refine .inl ⟨checked, _, fun fuel => ?_, grown, fun answers taken => ?_⟩
      · simp only [createSessionRow, inserting, checking]
      · have absent := congrArg Prod.snd checking
        rw [isAlive, answers, names] at absent
        simp [taken] at absent
    | true =>
      refine .inr ⟨names ▸ held rfl, _, fun fuel => ?_, grown.without.log .deleteSession none, ?_⟩
      · have deleting : ∀ id, checked.deleteRow env id = (({ checked with
            table := checked.table.deleteSession id } : LaunchWorld).log .deleteSession none,
            none) := by
          intro id
          unfold deleteRow attempt
          rw [stores.deletes]
        simp only [createSessionRow, inserting, checking, deleting]
      · have same : checked = _ := (congrArg Prod.fst checking).symm
        rw [same]
        exact seq

/-- The search takes at most one turn more than there are names that it could meet. -/
theorem createSessionRow_finds (stores : env.Stores) (toolID : Int) (workdir : List Char)
    (world : LaunchWorld) (held : List (List Char))
    (covers : ∀ id, world.table.seq < id → tmuxNameOf id ∈ world.names → tmuxNameOf id ∈ held) :
    ∃ next session, (∀ fuel, held.length < fuel →
        createSessionRow env toolID workdir fuel world = some (next, .ok session)) ∧
      world.Grown next [session] [] ∧
      ((∀ call, env.fails .isAlive call = none) → session.tmuxName ∉ world.names) := by
  induction count : held.length using Nat.strongRecOn generalizing world held with
  | ind count inductionHypothesis =>
    rcases createSessionRow_turn stores toolID workdir world with
      ⟨next, session, found, grown, free⟩ | ⟨taken, next, turned, grown, seq⟩
    · refine ⟨next, session, fun fuel enough => ?_, grown, free⟩
      obtain ⟨less, rfl⟩ := Nat.exists_eq_succ_of_ne_zero (Nat.ne_zero_of_lt enough)
      exact found less
    · have member := covers _ (Nat.lt_succ_self _) taken
      have positive := List.length_pos_of_mem member
      have names : next.names = world.names := by
        rw [LaunchWorld.names, grown.tmux, List.append_nil]
        rfl
      obtain ⟨final, session, found, later, free⟩ :=
        inductionHypothesis (held.erase (tmuxNameOf (world.table.seq + 1))).length
          (by rw [List.length_erase_of_mem member]; omega) next _ (by
            intro id later collides
            rw [seq] at later
            rw [names] at collides
            have other : tmuxNameOf id ≠ tmuxNameOf (world.table.seq + 1) := fun same =>
              Nat.ne_of_gt later (tmuxNameOf_injective same)
            exact (List.mem_erase_of_ne other).mpr
              (covers id (Nat.lt_of_succ_lt later) collides)) rfl
      refine ⟨final, session, fun fuel enough => ?_, grown.trans later, names ▸ free⟩
      obtain ⟨less, rfl⟩ := Nat.exists_eq_succ_of_ne_zero (Nat.ne_zero_of_lt enough)
      rw [turned]
      refine found less ?_
      rw [List.length_erase_of_mem member]
      omega

/-- The search of a row ends whatever tmux holds. It leaves one row more, under a name that tmux
does not hold if the checks reached tmux, and nothing else is touched. -/
theorem createSessionRow_minimal (env : Surroundings) (stores : env.Stores) (toolID : Int)
    (workdir : List Char) (world : LaunchWorld) :
    ∃ next session, (∀ fuel, world.tmux.length < fuel →
        createSessionRow env toolID workdir fuel world = some (next, .ok session)) ∧
      ((∀ call, env.fails .isAlive call = none) → session.tmuxName ∉ world.names) ∧
      next.table.rows = world.table.rows ++ [session.row] ∧ next.tmux = world.tmux := by
  obtain ⟨next, session, found, grown, free⟩ :=
    createSessionRow_finds stores toolID workdir world world.names fun _ _ held => held
  rw [names, List.length_map] at found
  exact ⟨next, session, found, free, grown.rows, grown.tmux.trans (List.append_nil _)⟩

end LaunchWorld

/-- A tool of two commands, on a machine where tmux holds the second name. -/
def heldWorld : LaunchWorld where
  tools := [⟨1, ['d', 'e', 'v'], ['a', ';', ';', 'b']⟩]
  dirs := idleWorld.dirs
  tree := idleWorld.tree
  table := idleWorld.table
  subdirs := []
  tmux := [⟨['m', 'm', '-', '2'], ['/'], ['v', 'i']⟩]
  events := []
  calls := []

/-- Surroundings in which the command of the second session does not start. -/
def failingRespawn : Surroundings where
  now _ := 0
  fails
    | .respawnPane, made => if 12 ≤ made then some "exit status 1" else none
    | _, _ => none

/-- A machine where tmux holds the very first name. -/
def firstHeldWorld : LaunchWorld :=
  { heldWorld with tmux := [⟨['m', 'm', '-', '1'], ['/'], ['v', 'i']⟩] }

/-- The search passes over the name that tmux holds: it deletes the row of that name again and
leaves that of the next. -/
theorem held_name_skipped : ∃ next session,
    LaunchWorld.createSessionRow failingRespawn 1 ['/'] 2 firstHeldWorld =
        some (next, .ok session) ∧
      session.tmuxName = ['m', 'm', '-', '2'] ∧
      next.calls = [(.createSession, none), (.isAlive, none), (.deleteSession, none),
        (.createSession, none), (.isAlive, none)] ∧
      session.tmuxName ∉ firstHeldWorld.names ∧
      next.table.rows = firstHeldWorld.table.rows ++ [session.row] ∧
      next.tmux = firstHeldWorld.tmux := by
  have stores : failingRespawn.Stores := ⟨fun _ => rfl, fun _ => rfl⟩
  obtain ⟨next, session, found, free, rows, tmux⟩ :=
    LaunchWorld.createSessionRow_minimal failingRespawn stores 1 ['/'] firstHeldWorld
  have skipped : (LaunchWorld.createSessionRow failingRespawn 1 ['/'] 2 firstHeldWorld).map
      (fun done => (done.1.calls, done.2.toOption.map Session.tmuxName)) =
        some ([(.createSession, none), (.isAlive, none), (.deleteSession, none),
          (.createSession, none), (.isAlive, none)], some ['m', 'm', '-', '2']) := rfl
  rw [found 2 (by decide)] at skipped
  obtain ⟨calls, name⟩ := Prod.mk.inj (Option.some.inj skipped)
  exact ⟨next, session, found 2 (by decide), Option.some.inj name, calls, free fun _ => rfl, rows,
    tmux⟩

end Multimux
