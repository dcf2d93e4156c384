/-
This file models the requests that start, kill and dismiss sessions, and the
reconcile pass that marks what died, over one sessions table and one tmux
server. Each handler is a process that takes one store call, tmux call, clock
reading or broadcast at a time. A launch inserts a row before its tmux session
exists, and undoes what it did when a later call fails; what else happens to
tmux and to the clock comes from outside.
-/

import Multimux.Credentials
import Multimux.SessionTable

namespace Multimux

/-! ### The world of the handlers -/

/-- What is broadcast to the clients. -/
inductive SessionEvent
  | created (session : Session)
  | killed (session : Session)
  | dismissed (session : Session)
  | died (session : Session)
  deriving DecidableEq

/-- The clock, the store, the file tree and the tmux sessions. `launched` is a history variable:
the names of the tmux sessions that a launch started. -/
structure SessionWorld where
  now : Int
  tools : List Tool
  dirs : List Dir
  tree : FileTree
  table : SessionTable
  tmux : List (List Char)
  events : List SessionEvent
  launched : List (List Char)

/-- An event is sent to the browsers. -/
def SessionWorld.broadcast (world : SessionWorld) (event : SessionEvent) : SessionWorld :=
  { world with events := world.events ++ [event] }

/-- `KillSession`, which takes a session that is already gone for killed. -/
def SessionWorld.killSession (world : SessionWorld) (name : List Char) : SessionWorld :=
  { world with tmux := world.tmux.filter (· ≠ name) }

/-- `CreateSession` of a name that is free. -/
def SessionWorld.newSession (world : SessionWorld) (name : List Char) : SessionWorld :=
  { world with tmux := world.tmux ++ [name], launched := world.launched ++ [name] }

/-! ### Launches -/

/-- The body of a launch request. -/
structure CreateBody where
  toolID : Int
  dirID : Int
  subdir : List Char

/-- A launch on its way through the commands of its tool: those still to come and the sessions
created so far. -/
structure Launch where
  toolID : Int
  workdir : List Char
  group : Bool
  todo : List (List Char)
  created : List Session

/-- Where a `handleCreateSession` request stands. -/
inductive CreateSession
  | listingTools (body : CreateBody)
  | listingDirs (body : CreateBody) (tools : List Tool)
  | sampling (launch : Launch) (command : List Char)
  | inserting (launch : Launch) (command : List Char) (now : Int)
  | checking (launch : Launch) (command : List Char) (session : Session)
  | skipping (launch : Launch) (command : List Char) (session : Session)
  | labelling (launch : Launch) (command : List Char) (session : Session)
  | starting (launch : Launch) (session : Session)
  | dropping (launch : Launch) (session : Session) (error : String)
  | killing (session : Session) (rest : List Session) (error : String)
  | deleting (session : Session) (rest : List Session) (error : String)
  | recording (created : List Session)
  | announcing (created : List Session)
  | answered (response : Response)

/-- The tool and the directory of a request, and what is wrong with it. A later entry of an id
counts. -/
def CreateBody.launch (body : CreateBody) (tree : FileTree) (tools : List Tool)
    (dirs : List Dir) : Except String Launch :=
  match (tools.filter (·.id = body.toolID)).getLast?,
      (dirs.filter (·.id = body.dirID)).getLast? with
  | some tool, some dir =>
    (resolveSubdir tree dir.path body.subdir).map fun workdir =>
      let commands := splitCommand tool.command
      { toolID := tool.id, workdir, group := 1 < commands.length, todo := commands, created := [] }
  | _, _ => .error "unknown tool or dir"

/-- The loop over the commands. -/
def Launch.next (launch : Launch) : CreateSession :=
  match launch.todo with
  | [] => .recording launch.created
  | command :: rest => .sampling { launch with todo := rest } command

/-- The undo loop over the sessions created, and the answer after it. -/
def rollback (created : List Session) (error : String) : CreateSession :=
  match created with
  | [] => .answered ⟨500, some error⟩
  | session :: rest => .killing session rest error

/-- The error of tmux for a name that is held. -/
def duplicateSession (name : List Char) : String :=
  "tmux start-server: exit status 1: duplicate session: " ++ String.ofList name

/-- `handleCreateSession` and `createSessionRow`, one call at a time. A check that fails to reach
tmux finds no session; the calls of the undo, and the subdirectory's record, may fail without
notice. -/
def handleCreateSession (world : SessionWorld) :
    CreateSession → Outcome → Option (SessionWorld × CreateSession)
  | .listingTools _, .fails error => some (world, .answered ⟨500, some error⟩)
  | .listingTools body, .ok => some (world, .listingDirs body world.tools)
  | .listingDirs _ _, .fails error => some (world, .answered ⟨500, some error⟩)
  | .listingDirs body tools, .ok =>
    match body.launch world.tree tools world.dirs with
    | .error error => some (world, .answered ⟨400, some error⟩)
    | .ok launch => some (world, launch.next)
  | .sampling launch command, _ => some (world, .inserting launch command world.now)
  | .inserting launch _ _, .fails error => some (world, rollback launch.created error)
  | .inserting launch command now, .ok =>
    some ({ world with table := world.table.createSession launch.toolID launch.workdir now },
      .checking launch command (world.table.inserted launch.toolID launch.workdir now))
  | .checking launch command session, outcome =>
    match outcome, decide (session.tmuxName ∈ world.tmux) with
    | .ok, true => some (world, .skipping launch command session)
    | _, _ =>
      if launch.group then some (world, .labelling launch command session)
      else some (world, .starting launch session)
  | .skipping launch _ _, .fails error => some (world, rollback launch.created error)
  | .skipping launch command session, .ok =>
    some ({ world with table := world.table.deleteSession session.id }, .sampling launch command)
  | .labelling launch _ session, .fails error => some (world, .dropping launch session error)
  | .labelling launch command session, .ok =>
    match world.table.setSessionLabel session.id (commandLabel command) with
    | none => some (world, .dropping launch session "store: not found")
    | some table =>
      some ({ world with table },
        .starting launch { session with label := commandLabel command })
  | .starting launch session, .fails error => some (world, .dropping launch session error)
  | .starting launch session, .ok =>
    if session.tmuxName ∈ world.tmux then
      some (world, .dropping launch session (duplicateSession session.tmuxName))
    else
      some (world.newSession session.tmuxName,
        { launch with created := launch.created ++ [session] : Launch }.next)
  | .dropping launch _ error, .fails _ => some (world, rollback launch.created error)
  | .dropping launch session error, .ok =>
    some ({ world with table := world.table.deleteSession session.id },
      rollback launch.created error)
  | .killing session rest error, .fails _ => some (world, .deleting session rest error)
  | .killing session rest error, .ok =>
    some (world.killSession session.tmuxName, .deleting session rest error)
  | .deleting _ rest error, .fails _ => some (world, rollback rest error)
  | .deleting session rest error, .ok =>
    some ({ world with table := world.table.deleteSession session.id }, rollback rest error)
  | .recording created, _ => some (world, .announcing created)
  | .announcing [], _ => some (world, .answered ⟨201, none⟩)
  | .announcing (session :: rest), _ =>
    some (world.broadcast (.created session), .announcing rest)
  | .answered _, _ => none

/-- What a step of a launch writes to the table. -/
inductive CreateSession.Writes (table : SessionTable) :
    CreateSession → Outcome → SessionTable → Prop
  | nothing (proc : CreateSession) (outcome : Outcome) : Writes table proc outcome table
  | inserts (launch : Launch) (command : List Char) (now : Int) :
      Writes table (.inserting launch command now) .ok
        (table.createSession launch.toolID launch.workdir now)
  | labels (launch : Launch) (command : List Char) (session : Session) {labelled : SessionTable}
      (written : table.setSessionLabel session.id (commandLabel command) = some labelled) :
      Writes table (.labelling launch command session) .ok labelled
  | skips (launch : Launch) (command : List Char) (session : Session) :
      Writes table (.skipping launch command session) .ok (table.deleteSession session.id)
  | drops (launch : Launch) (session : Session) (error : String) :
      Writes table (.dropping launch session error) .ok (table.deleteSession session.id)
  | deletes (session : Session) (rest : List Session) (error : String) :
      Writes table (.deleting session rest error) .ok (table.deleteSession session.id)

theorem handleCreateSession_writes {world next : SessionWorld} {proc after : CreateSession}
    {outcome : Outcome} (stepped : handleCreateSession world proc outcome = some (next, after)) :
    proc.Writes world.table outcome next.table := by
  cases proc with
  | inserting launch command now =>
    cases outcome <;> cases stepped
    · exact .inserts launch command now
    · exact .nothing ..
  | skipping launch command session =>
    cases outcome <;> cases stepped
    · exact .skips launch command session
    · exact .nothing ..
  | labelling launch command session =>
    cases outcome with
    | ok =>
      simp only [handleCreateSession] at stepped
      split at stepped <;> cases stepped
      · exact .nothing ..
      · rename_i written
        exact .labels launch command session written
    | fails error =>
      cases stepped
      exact .nothing ..
  | dropping launch session error =>
    cases outcome <;> cases stepped
    · exact .drops launch session error
    · exact .nothing ..
  | deleting session rest error =>
    cases outcome <;> cases stepped
    · exact .deletes session rest error
    · exact .nothing ..
  | listingDirs body tools =>
    cases outcome with
    | ok =>
      simp only [handleCreateSession] at stepped
      split at stepped <;> cases stepped <;> exact .nothing ..
    | fails error =>
      cases stepped
      exact .nothing ..
  | checking launch command session =>
    simp only [handleCreateSession] at stepped
    split at stepped
    · cases stepped
      exact .nothing ..
    · split at stepped <;> cases stepped <;> exact .nothing ..
  | starting launch session =>
    cases outcome with
    | ok =>
      simp only [handleCreateSession] at stepped
      split at stepped <;> cases stepped <;> exact .nothing ..
    | fails error =>
      cases stepped
      exact .nothing ..
  | announcing created => cases created <;> cases stepped <;> exact .nothing ..
  | listingTools body => cases outcome <;> cases stepped <;> exact .nothing ..
  | killing session rest error => cases outcome <;> cases stepped <;> exact .nothing ..
  | sampling launch command =>
    cases stepped
    exact .nothing ..
  | recording created =>
    cases stepped
    exact .nothing ..
  | answered response => cases stepped

/-! ### Kills and dismissals -/

/-- Where a `handleKillSession` request stands. -/
inductive KillSession
  | reading (id : Int)
  | killing (session : Session)
  | marking (session : Session)
  | announcing (session : Session)
  | answered (response : Response)

/-- `handleKillSession`, one call at a time. -/
def handleKillSession (world : SessionWorld) :
    KillSession → Outcome → Option (SessionWorld × KillSession)
  | .reading _, .fails error => some (world, .answered ⟨500, some error⟩)
  | .reading id, .ok =>
    match world.table.getSession id with
    | none => some (world, .answered ⟨404, some "not found"⟩)
    | some session => some (world, .killing session)
  | .killing _, .fails error => some (world, .answered ⟨500, some error⟩)
  | .killing session, .ok => some (world.killSession session.tmuxName, .marking session)
  | .marking _, .fails error => some (world, .answered ⟨500, some error⟩)
  | .marking session, .ok =>
    some ({ world with table := world.table.setSessionStatus session.id .dead },
      .announcing { session with status := .dead })
  | .announcing session, _ => some (world.broadcast (.killed session), .answered ⟨204, none⟩)
  | .answered _, _ => none

/-- Where a `handleDismissSession` request stands. -/
inductive DismissSession
  | reading (id : Int)
  | deleting (session : Session)
  | announcing (session : Session)
  | answered (response : Response)

/-- `handleDismissSession`, one call at a time; a running session is not dismissed. -/
def handleDismissSession (world : SessionWorld) :
    DismissSession → Outcome → Option (SessionWorld × DismissSession)
  | .reading _, .fails error => some (world, .answered ⟨500, some error⟩)
  | .reading id, .ok =>
    match world.table.getSession id with
    | none => some (world, .answered ⟨404, some "not found"⟩)
    | some session =>
      if session.status = .running then
        some (world, .answered ⟨409, some "session is running — kill it first"⟩)
      else some (world, .deleting session)
  | .deleting _, .fails error => some (world, .answered ⟨500, some error⟩)
  | .deleting session, .ok =>
    some ({ world with table := world.table.deleteSession session.id }, .announcing session)
  | .announcing session, _ => some (world.broadcast (.dismissed session), .answered ⟨204, none⟩)
  | .answered _, _ => none

/-! ### Reconcile passes -/

/-- How old a running row must be before a pass may declare it dead. -/
def reconcileGrace : Int := 10 * second

/-- Where a pass of `Reconcile` stands. `listed` is a history variable, the instant of its tmux
listing. -/
inductive Reconcile
  | reading
  | listing (sessions : List Session)
  | sampling (sessions : List Session) (alive : List (List Char)) (listed : Int)
  | marking (dead : List Session) (newlyDead : List Session)
  | announcing (session : Session) (dead : List Session) (newlyDead : List Session)
  | returned (newlyDead : List Session) (error : Option String)

/-- What a pass declares dead: a running row whose tmux session is not in the listing and that
is past its grace. -/
def Session.declaredDead (session : Session) (alive : List (List Char)) (now : Int) : Bool :=
  session.status = .running ∧ session.tmuxName ∉ alive ∧ ¬ now - session.createdAt < reconcileGrace

/-- `Reconcile`, one call or clock reading at a time. What is dead is decided on the rows, the
listing and the instant that the pass holds. -/
def reconcile (world : SessionWorld) : Reconcile → Outcome → Option (SessionWorld × Reconcile)
  | .reading, .fails error => some (world, .returned [] (some error))
  | .reading, .ok => some (world, .listing world.table.listSessions)
  | .listing _, .fails error => some (world, .returned [] (some error))
  | .listing sessions, .ok => some (world, .sampling sessions world.tmux world.now)
  | .sampling sessions alive _, _ =>
    some (world, .marking (sessions.filter (·.declaredDead alive world.now)) [])
  | .marking [] newlyDead, _ => some (world, .returned newlyDead none)
  | .marking (_ :: _) newlyDead, .fails error => some (world, .returned newlyDead (some error))
  | .marking (session :: rest) newlyDead, .ok =>
    some ({ world with table := world.table.setSessionStatus session.id .dead },
      .announcing { session with status := .dead } rest newlyDead)
  | .announcing session rest newlyDead, _ =>
    some (world.broadcast (.died session), .marking rest (newlyDead ++ [session]))
  | .returned _ _, _ => none

/-! ### The machine -/

/-- A request, or the tick of a pass. A body or an id that does not parse is absent. -/
inductive SessionRequest
  | create (body : Option CreateBody)
  | kill (id : Option Int)
  | dismiss (id : Option Int)
  | reconcile

/-- A request or a pass under way. -/
inductive SessionProc
  | create (proc : CreateSession)
  | kill (proc : KillSession)
  | dismiss (proc : DismissSession)
  | reconcile (proc : Reconcile)

/-- A request before its first call; a body or an id that cannot be read is answered at once. -/
def enterSession : SessionRequest → SessionProc
  | .create none => .create (.answered ⟨400, some "bad body"⟩)
  | .create (some body) => .create (.listingTools body)
  | .kill none => .kill (.answered ⟨400, some "bad id"⟩)
  | .kill (some id) => .kill (.reading id)
  | .dismiss none => .dismiss (.answered ⟨400, some "bad id"⟩)
  | .dismiss (some id) => .dismiss (.reading id)
  | .reconcile => .reconcile .reading

/-- The next call of a request. -/
def serveSession (world : SessionWorld) :
    SessionProc → Outcome → Option (SessionWorld × SessionProc)
  | .create proc, outcome => (handleCreateSession world proc outcome).map (Prod.map id .create)
  | .kill proc, outcome => (handleKillSession world proc outcome).map (Prod.map id .kill)
  | .dismiss proc, outcome => (handleDismissSession world proc outcome).map (Prod.map id .dismiss)
  | .reconcile proc, outcome => (reconcile world proc outcome).map (Prod.map id .reconcile)

/-- The process goes on to announce that the session ended. -/
def SessionProc.announces : SessionProc → Nat → Prop
  | .kill (.announcing session), id | .dismiss (.announcing session), id
  | .reconcile (.announcing session _ _), id => session.id = id
  | _, _ => False

/-- What a step of a kill, a dismissal or a pass does: it ends a session that it announces next,
it broadcasts, or it leaves the table and the events. -/
inductive SessionProc.Does (world : SessionWorld) (proc after : SessionProc) :
    SessionWorld → Prop
  | idles {next : SessionWorld} (silent : ∀ id, ¬ proc.announces id)
      (table : next.table = world.table) (events : next.events = world.events) :
      Does world proc after next
  | marks (session : Session) (silent : ∀ id, ¬ proc.announces id)
      (owed : after.announces session.id) :
      Does world proc after { world with table := world.table.setSessionStatus session.id .dead }
  | deletes (session : Session) (silent : ∀ id, ¬ proc.announces id)
      (owed : after.announces session.id) :
      Does world proc after { world with table := world.table.deleteSession session.id }
  | announces (event : SessionEvent) : Does world proc after (world.broadcast event)

theorem handleKillSession_does {world next : SessionWorld} {proc after : KillSession}
    {outcome : Outcome} (stepped : handleKillSession world proc outcome = some (next, after)) :
    SessionProc.Does world (.kill proc) (.kill after) next := by
  cases proc with
  | reading id =>
    cases outcome with
    | ok =>
      simp only [handleKillSession] at stepped
      split at stepped <;> cases stepped <;> exact .idles (fun _ owes => owes) rfl rfl
    | fails error =>
      cases stepped
      exact .idles (fun _ owes => owes) rfl rfl
  | killing session => cases outcome <;> cases stepped <;> exact .idles (fun _ owes => owes) rfl rfl
  | marking session =>
    cases outcome <;> cases stepped
    · exact .marks session (fun _ owes => owes) rfl
    · exact .idles (fun _ owes => owes) rfl rfl
  | announcing session =>
    cases stepped
    exact .announces _
  | answered response => cases stepped

theorem handleDismissSession_does {world next : SessionWorld} {proc after : DismissSession}
    {outcome : Outcome} (stepped : handleDismissSession world proc outcome = some (next, after)) :
    SessionProc.Does world (.dismiss proc) (.dismiss after) next := by
  cases proc with
  | reading id =>
    cases outcome with
    | ok =>
      simp only [handleDismissSession] at stepped
      split at stepped
      · cases stepped
        exact .idles (fun _ owes => owes) rfl rfl
      · split at stepped <;> cases stepped <;> exact .idles (fun _ owes => owes) rfl rfl
    | fails error =>
      cases stepped
      exact .idles (fun _ owes => owes) rfl rfl
  | deleting session =>
    cases outcome <;> cases stepped
    · exact .deletes session (fun _ owes => owes) rfl
    · exact .idles (fun _ owes => owes) rfl rfl
  | announcing session =>
    cases stepped
    exact .announces _
  | answered response => cases stepped

theorem reconcile_does {world next : SessionWorld} {proc after : Reconcile} {outcome : Outcome}
    (stepped : reconcile world proc outcome = some (next, after)) :
    SessionProc.Does world (.reconcile proc) (.reconcile after) next := by
  cases proc with
  | reading => cases outcome <;> cases stepped <;> exact .idles (fun _ owes => owes) rfl rfl
  | listing sessions =>
    cases outcome <;> cases stepped <;> exact .idles (fun _ owes => owes) rfl rfl
  | sampling sessions alive listed =>
    cases stepped
    exact .idles (fun _ owes => owes) rfl rfl
  | marking dead newlyDead =>
    cases dead with
    | nil =>
      cases stepped
      exact .idles (fun _ owes => owes) rfl rfl
    | cons session rest =>
      cases outcome <;> cases stepped
      · exact .marks session (fun _ owes => owes) rfl
      · exact .idles (fun _ owes => owes) rfl rfl
  | announcing session rest newlyDead =>
    cases stepped
    exact .announces _
  | returned newlyDead error => cases stepped

/-- A step of the machine is a launch's, or one of the other kind. -/
theorem serveSession_does {world next : SessionWorld} {proc after : SessionProc}
    {outcome : Outcome} (stepped : serveSession world proc outcome = some (next, after)) :
    (∃ create place, proc = .create create ∧ after = .create place ∧
      handleCreateSession world create outcome = some (next, place)) ∨
    (∀ create, proc ≠ .create create) ∧ SessionProc.Does world proc after next := by
  cases proc with
  | create create =>
    obtain ⟨⟨_, place⟩, done, ⟨⟩⟩ := Option.map_eq_some_iff.mp stepped
    exact .inl ⟨create, place, rfl, rfl, done⟩
  | kill kill =>
    obtain ⟨⟨_, place⟩, done, ⟨⟩⟩ := Option.map_eq_some_iff.mp stepped
    refine .inr ⟨?_, handleKillSession_does done⟩
    rintro _ ⟨⟩
  | dismiss dismiss =>
    obtain ⟨⟨_, place⟩, done, ⟨⟩⟩ := Option.map_eq_some_iff.mp stepped
    refine .inr ⟨?_, handleDismissSession_does done⟩
    rintro _ ⟨⟩
  | reconcile pass =>
    obtain ⟨⟨_, place⟩, done, ⟨⟩⟩ := Option.map_eq_some_iff.mp stepped
    refine .inr ⟨?_, reconcile_does done⟩
    rintro _ ⟨⟩

/-- What happens besides: time passes, a tmux session ends, and one is started by hand. -/
inductive SessionOutside
  | wait (duration : Nat)
  | exits (name : List Char)
  | starts (name : List Char)

/-- What happens besides the requests: time passes, and tmux sessions end or start by other hands.
-/
def occurSession (world : SessionWorld) : SessionOutside → Option SessionWorld
  | .wait duration => some { world with now := world.now + duration }
  | .exits name => some (world.killSession name)
  | .starts name =>
    if name ∈ world.tmux then none else some { world with tmux := world.tmux ++ [name] }

theorem occurSession_table {world next : SessionWorld} {event : SessionOutside}
    (occurred : occurSession world event = some next) : next.table = world.table := by
  cases event with
  | wait duration =>
    cases occurred
    rfl
  | exits name =>
    cases occurred
    rfl
  | starts name =>
    simp only [occurSession] at occurred
    split at occurred
    · cases occurred
    · cases occurred
      rfl

/-- Concurrent requests and passes over one table and one tmux server. -/
def sessionMachine :
    Machine SessionWorld SessionRequest SessionProc Outcome SessionOutside where
  enter := enterSession
  step := serveSession
  outside := occurSession

/-- A world before any request. -/
def SessionWorld.quiet (world : SessionWorld) : Pool SessionWorld SessionProc where
  world := { world with launched := [] }
  procs := []

/-- One tool, one directory, and nothing started yet. -/
def idleWorld : SessionWorld where
  now := 0
  tools := [⟨1, ['s', 'h'], ['s', 'h']⟩]
  dirs := [⟨1, ['t', 'm', 'p'], ⟨['/', 't', 'm', 'p'], rfl⟩⟩]
  tree := .ofEntries [] nofun
  table := ⟨[], 0, nofun, .nil⟩
  tmux := []
  events := []
  launched := []

end Multimux
