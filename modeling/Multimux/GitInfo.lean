/-
This file models how the git fields reach the session list. A pass lists the
running sessions, inspects their directories, swaps the result in for the cache
and broadcasts when a directory is new or has changed; the list is served from
the cache alone, and a client fetches it again after every event. A directory
that leaves the cache is not announced, so a client may show more than the cache
holds, but never less: whatever the last pass resolved is what is shown. What a
client can be left with is a session whose launch deleted its row without an
event; the last pass has nothing for its directory.
-/

import Multimux.Announcements
import Multimux.Orphans

namespace Multimux

/-! ### Git fields -/

/-- `gitinfo.Status`. -/
structure GitStatus where
  branch : String
  state : String
  ahead : Nat
  behind : Nat
  noUpstream : Bool
  deriving DecidableEq

/-- What is known of a directory under git. -/
structure DirGitInfo where
  url : String
  status : GitStatus
  deriving DecidableEq

/-- What the list serves for a directory that the cache does not know. -/
def DirGitInfo.zero : DirGitInfo := ⟨"", ⟨"", "", 0, 0, false⟩⟩

/-- A lookup of an origin, and when it ran. -/
structure UrlLookup where
  url : String
  instant : Int

/-- How long a lookup of an origin is trusted. -/
def gitURLTTL : Int := minute

/-- The directories of the running sessions, each once. -/
def liveDirs (sessions : List Session) : List (List Char) :=
  ((sessions.filter (·.status = .running)).map Session.dir).eraseDups

/-- The cached lookup of a directory while it is trusted. -/
def cachedURL (gitURLs : List (List Char × UrlLookup)) (now : Int) (dir : List Char) :
    Option UrlLookup :=
  (gitURLs.lookup dir).filter fun known => now - known.instant < gitURLTTL

/-- `resolveGit`: the git data of the directories, and the lookups after it. What git answers
comes from outside. -/
def resolveGit (gitURLs : List (List Char × UrlLookup)) (now : Int)
    (repoWebURL : List Char → String) (branchStatus : List Char → GitStatus)
    (dirs : List (List Char)) : List (List Char × DirGitInfo) × List (List Char × UrlLookup) :=
  let known := fun dir => (cachedURL gitURLs now dir).getD ⟨repoWebURL dir, now⟩
  let looked := dirs.filter fun dir => (cachedURL gitURLs now dir).isNone
  (dirs.map fun dir => (dir, ⟨(known dir).url, branchStatus dir⟩),
    looked.map (fun dir => (dir, known dir)) ++ gitURLs.filter fun entry => entry.1 ∉ looked)

/-- A directory is new or has changed. -/
def gitChanged (gitSeen seen : List (List Char × DirGitInfo)) : Bool :=
  seen.any fun entry => gitSeen.lookup entry.1 ≠ some entry.2

/-- A session as it is sent, with what is known of its directory. -/
structure SessionJSON where
  session : Session
  git : DirGitInfo
  deriving DecidableEq

/-- What `handleListSessions` makes of the sessions and the cache that it read. -/
def sessionsJSON (gitSeen : List (List Char × DirGitInfo)) (sessions : List Session) :
    List SessionJSON :=
  sessions.map fun session =>
    { session
      git :=
        if session.dir ∈ liveDirs sessions then
          (gitSeen.lookup session.dir).getD DirGitInfo.zero
        else DirGitInfo.zero }

/-! ### The world of passes and fetches -/

/-- Where the pass of `CheckGitInfo` stands; passes do not overlap. -/
inductive GitPass
  | idle
  | listing
  | resolving (dirs : List (List Char))
  | swapping (seen : List (List Char × DirGitInfo))
  | announcing
  deriving DecidableEq

/-- A fetch of the list, whose answer takes two readings. -/
inductive SessionFetch
  | issued
  | reading (sessions : List Session)
  | answered (list : List SessionJSON)

/-- A pass that has swapped its result in: how many session changes there were when it began, and
what it resolved. -/
structure FinishedPass where
  began : Nat
  seen : List (List Char × DirGitInfo)

/-- The daemon and one client. `queue` counts the events on their way to the client, `queued` says
that it deferred one while a fetch was out, and the fetches stand in the order of their issue.
History variables: `changes` counts the session changes, and `began` is its value when the pass
began. -/
structure GitWorld where
  base : SessionWorld
  gitSeen : List (List Char × DirGitInfo)
  gitURLs : List (List Char × UrlLookup)
  pass : GitPass
  queue : Nat
  queued : Bool
  fetches : List SessionFetch
  list : List SessionJSON
  changes : Nat
  began : Nat
  lastPass : Option FinishedPass

/-- What can move a pass on. -/
inductive PassEvent
  | starts
  | lists (outcome : Outcome)
  | resolves (repoWebURL : List Char → String) (branchStatus : List Char → GitStatus)
  | swaps
  | announces

/-- `CheckGitInfo`, one critical section at a time. -/
def checkGitInfo (world : GitWorld) : GitPass → PassEvent → Option GitWorld
  | .idle, .starts => some { world with pass := .listing, began := world.changes }
  | .listing, .lists (.fails _) => some { world with pass := .idle }
  | .listing, .lists .ok =>
    some { world with pass := .resolving (liveDirs world.base.table.listSessions) }
  | .resolving dirs, .resolves repoWebURL branchStatus =>
    let resolved := resolveGit world.gitURLs world.base.now repoWebURL branchStatus dirs
    some { world with gitURLs := resolved.2, pass := .swapping resolved.1 }
  | .swapping seen, .swaps =>
    some { world with
      gitURLs := world.gitURLs.filter fun entry => entry.1 ∈ seen.map Prod.fst
      gitSeen := seen
      pass := if gitChanged world.gitSeen seen then .announcing else .idle
      lastPass := some ⟨world.began, seen⟩ }
  | .announcing, .announces => some { world with pass := .idle, queue := world.queue + 1 }
  | _, _ => none

/-- What a client does, and what happens to its fetches. -/
inductive ClientEvent
  | hears
  | defers
  | refreshes
  | reads (index : Nat)
  | answers (index : Nat)
  | delivers

/-- The client of `GridPage`, and the answers to its fetches. It may defer an event while a fetch
is out, and then fetches once more after it. -/
def stepClient (world : GitWorld) : ClientEvent → Option GitWorld
  | .hears =>
    if world.queue = 0 then none
    else some { world with queue := world.queue - 1, fetches := world.fetches ++ [.issued] }
  | .defers =>
    if world.queue = 0 ∨ world.fetches.isEmpty then none
    else some { world with queue := world.queue - 1, queued := true }
  | .refreshes => some { world with fetches := world.fetches ++ [.issued] }
  | .reads index =>
    match world.fetches[index]? with
    | some .issued => some { world with
        fetches := world.fetches.set index (.reading world.base.table.listSessions) }
    | _ => none
  | .answers index =>
    match world.fetches[index]? with
    | some (.reading sessions) => some { world with
        fetches := world.fetches.set index (.answered (sessionsJSON world.gitSeen sessions)) }
    | _ => none
  | .delivers =>
    match world.fetches with
    | .answered list :: rest => some { world with
        list
        fetches := if world.queued then rest ++ [.issued] else rest
        queued := false }
    | _ => none

/-- What happens besides the handlers. -/
inductive GitOutside
  | sessions (event : SessionOutside)
  | pass (event : PassEvent)
  | client (event : ClientEvent)

/-- What happens besides the requests: the world of the sessions, a pass of the checks, the client.
-/
def occurGit (world : GitWorld) : GitOutside → Option GitWorld
  | .sessions event => (occurSession world.base event).map fun base => { world with base }
  | .pass event => checkGitInfo world world.pass event
  | .client event => stepClient world event

/-- The world after a step of a handler, whose events go to the client. -/
def GitWorld.observe (world : GitWorld) (base : SessionWorld) : GitWorld :=
  { world with
    base
    queue := world.queue + (base.events.length - world.base.events.length)
    changes :=
      if base.table.rows = world.base.table.rows then world.changes else world.changes + 1 }

/-- The next call of a request, and what the client hears of it. -/
def serveGit (world : GitWorld) (proc : SessionProc) (outcome : Outcome) :
    Option (GitWorld × SessionProc) :=
  (serveSession world.base proc outcome).map fun after => (world.observe after.1, after.2)

/-- Launches, kills, dismissals and reconcile passes, beside the git passes and one client. -/
def gitMachine : Machine GitWorld SessionRequest SessionProc Outcome GitOutside where
  enter := enterSession
  step := serveGit
  outside := occurGit

/-- A daemon that has run no pass, and a client with its first fetch out. -/
def SessionWorld.uninspected (world : SessionWorld) : Pool GitWorld SessionProc where
  world := {
    base := world
    gitSeen := []
    gitURLs := []
    pass := .idle
    queue := 0
    queued := false
    fetches := [.issued]
    list := []
    changes := 0
    began := 0
    lastPass := none }
  procs := []

/-! ### Lookups -/

theorem mem_liveDirs {sessions : List Session} {dir : List Char} :
    dir ∈ liveDirs sessions ↔ ∃ session ∈ sessions, session.status = .running ∧
      session.dir = dir := by
  simp [liveDirs, List.mem_eraseDups, and_assoc]

theorem resolveGit_dirs (gitURLs : List (List Char × UrlLookup)) (now : Int)
    (repoWebURL : List Char → String) (branchStatus : List Char → GitStatus)
    (dirs : List (List Char)) :
    (resolveGit gitURLs now repoWebURL branchStatus dirs).1.map Prod.fst = dirs := by
  simp [resolveGit, Function.comp_def]

theorem lookup_of_mem_keys {seen : List (List Char × DirGitInfo)} {dir : List Char}
    (known : dir ∈ seen.map Prod.fst) : ∃ info, seen.lookup dir = some info := by
  obtain ⟨entry, member, rfl⟩ := List.mem_map.mp known
  exact Option.isSome_iff_exists.mp
    (List.lookup_isSome_iff.mpr ⟨entry, member, beq_self_eq_true _⟩)

/-- A result that is not announced is in the cache that it replaces. -/
theorem lookup_of_not_gitChanged {gitSeen seen : List (List Char × DirGitInfo)}
    (same : gitChanged gitSeen seen = false) {dir : List Char} {info : DirGitInfo}
    (found : seen.lookup dir = some info) : gitSeen.lookup dir = some info := by
  obtain ⟨before, after, rfl, -⟩ := List.lookup_eq_some_iff.mp found
  have here := List.any_eq_false.mp same (dir, info) (by simp)
  simpa using here

/-- A running session is served what the cache has for its directory. -/
theorem git_of_mem_sessionsJSON {known : List (List Char × DirGitInfo)} {sessions : List Session}
    {shown : SessionJSON} (member : shown ∈ sessionsJSON known sessions)
    (running : shown.session.status = .running) {info : DirGitInfo}
    (found : known.lookup shown.session.dir = some info) : shown.git = info := by
  obtain ⟨session, listed, rfl⟩ := List.mem_map.mp member
  have live : session.dir ∈ liveDirs sessions := mem_liveDirs.mpr ⟨session, listed, running, rfl⟩
  simp only at found
  rw [if_pos live, found, Option.getD_some]

theorem sessionsJSON_sessions (known : List (List Char × DirGitInfo)) (sessions : List Session) :
    (sessionsJSON known sessions).map SessionJSON.session = sessions := by
  simp [sessionsJSON, Function.comp_def]

/-! ### The latest fetch -/

/-- The fetch issued last, or the answer that the client shows once there is none. -/
def GitWorld.latest (world : GitWorld) : SessionFetch :=
  world.fetches.getLast?.getD (.answered world.list)

/-- The sessions that a fetch has read. -/
def SessionFetch.sessions : SessionFetch → List Session
  | .issued => []
  | .reading sessions => sessions
  | .answered list => list.map SessionJSON.session

/-- The row that a step of a launch deletes. -/
def SessionProc.undoes : SessionProc → Outcome → List Nat
  | .create proc, .ok => proc.deletes.toList.map Session.id
  | _, _ => []

/-- A launch does not delete a row that the latest fetch has read. -/
def DeletesUnread (pool : Pool GitWorld SessionProc) :
    Move SessionRequest Outcome GitOutside → Prop
  | .advance index outcome => ∀ proc ∈ pool.procs[index]?, ∀ id ∈ proc.undoes outcome,
      id ∉ pool.world.latest.sessions.map Session.id
  | _ => True

instance DeletesUnread.decidable (pool : Pool GitWorld SessionProc) :
    ∀ move, Decidable (DeletesUnread pool move)
  | .advance index outcome =>
    match found : pool.procs[index]? with
    | none => .isTrue (by simp [DeletesUnread, found])
    | some proc => decidable_of_iff (∀ id ∈ proc.undoes outcome,
        id ∉ pool.world.latest.sessions.map Session.id) (by simp [DeletesUnread, found])
  | .arrive _ => .isTrue trivial
  | .occur _ => .isTrue trivial

/-- The client has fetched after every event so far. -/
def GitWorld.Heard (world : GitWorld) : Prop := world.queue = 0 ∧ world.queued = false

/-- A change of one fetch is a change of the latest, or leaves the latest. -/
theorem GitWorld.latest_set {world : GitWorld} {index : Nat} {before : SessionFetch}
    (present : world.fetches[index]? = some before) (after : SessionFetch) :
    (world.latest = before ∧
        { world with fetches := world.fetches.set index after }.latest = after) ∨
      { world with fetches := world.fetches.set index after }.latest = world.latest := by
  obtain ⟨bound, -⟩ := List.getElem?_eq_some_iff.mp present
  simp only [GitWorld.latest, List.getLast?_eq_getElem?, List.length_set, List.getElem?_set]
  by_cases last : index = world.fetches.length - 1
  · left
    rw [← last, present, if_pos rfl, if_pos bound]
    exact ⟨rfl, rfl⟩
  · right
    rw [if_neg last]

/-- What a step of the client makes of the latest fetch. -/
inductive ClientStep (world next : GitWorld) : Prop
  | issued (latest : next.latest = .issued)
  | read (latest : next.latest = .reading world.base.table.listSessions)
  | served (sessions : List Session) (before : world.latest = .reading sessions)
      (latest : next.latest = .answered (sessionsJSON world.gitSeen sessions))
      (heard : next.Heard → world.Heard)
  | same (latest : next.latest = world.latest) (heard : next.Heard → world.Heard)

/-- A step of the client touches its fetches and its list alone. -/
theorem stepClient_cases {world next : GitWorld} {event : ClientEvent}
    (stepped : stepClient world event = some next) :
    ClientStep world next ∧ next = { world with
      queue := next.queue
      queued := next.queued
      fetches := next.fetches
      list := next.list } := by
  cases event with
  | hears =>
    simp only [stepClient] at stepped
    split at stepped <;> cases stepped
    exact ⟨.issued (by simp [GitWorld.latest]), rfl⟩
  | defers =>
    simp only [stepClient] at stepped
    split at stepped <;> cases stepped
    exact ⟨.same rfl (fun heard => nomatch heard.2), rfl⟩
  | refreshes =>
    cases stepped
    exact ⟨.issued (by simp [GitWorld.latest]), rfl⟩
  | reads index =>
    simp only [stepClient] at stepped
    split at stepped <;> cases stepped
    rename_i present
    rcases GitWorld.latest_set present (.reading world.base.table.listSessions) with last | same
    · exact ⟨.read last.2, rfl⟩
    · exact ⟨.same same id, rfl⟩
  | answers index =>
    simp only [stepClient] at stepped
    split at stepped <;> cases stepped
    rename_i sessions present
    rcases GitWorld.latest_set present (.answered (sessionsJSON world.gitSeen sessions)) with
      last | same
    · exact ⟨.served sessions last.1 last.2 id, rfl⟩
    · exact ⟨.same same id, rfl⟩
  | delivers =>
    simp only [stepClient] at stepped
    split at stepped <;> cases stepped
    rename_i list rest front
    refine ⟨?_, rfl⟩
    cases deferred : world.queued with
    | true => exact .issued (by simp [GitWorld.latest])
    | false =>
      refine .same ?_ fun heard => ⟨heard.1, deferred⟩
      rcases List.eq_nil_or_concat rest with rfl | ⟨earlier, last, rfl⟩ <;>
        simp [GitWorld.latest, front, List.getLast?_cons]

/-! ### The cache and what is shown -/

/-- Once every event is heard and announced, the latest answer was served from a cache that had
all that this one has. -/
def GitWorld.Served (world : GitWorld) : Prop :=
  ∀ list, world.latest = .answered list → ∃ known sessions, list = sessionsJSON known sessions ∧
    (world.Heard → world.pass ≠ .announcing → ∀ dir info,
      world.gitSeen.lookup dir = some info → known.lookup dir = some info)

/-- A step that leaves the latest fetch and the cache, and announces nothing. -/
theorem GitWorld.Served.same {world next : GitWorld} (served : world.Served)
    (latest : next.latest = world.latest) (cache : next.gitSeen = world.gitSeen)
    (heard : next.Heard → world.Heard)
    (silent : next.pass ≠ .announcing → world.pass ≠ .announcing) : next.Served := by
  intro list answered
  obtain ⟨known, sessions, rfl, has⟩ := served list (latest.symm.trans answered)
  rw [cache]
  exact ⟨known, sessions, rfl, fun settled quiet => has (heard settled) (silent quiet)⟩

theorem GitWorld.Served.client {world next : GitWorld} (served : world.Served)
    {event : ClientEvent} (stepped : stepClient world event = some next) : next.Served := by
  obtain ⟨step, frame⟩ := stepClient_cases stepped
  have cache : next.gitSeen = world.gitSeen := by rw [frame]
  have pass : next.pass = world.pass := by rw [frame]
  cases step with
  | issued latest => exact fun list answered => nomatch latest.symm.trans answered
  | read latest => exact fun list answered => nomatch latest.symm.trans answered
  | served sessions before latest heard =>
    intro list answered
    cases latest.symm.trans answered
    exact ⟨world.gitSeen, sessions, rfl, fun _ _ _ _ found => cache ▸ found⟩
  | same latest heard => exact served.same latest cache heard fun silent => pass ▸ silent

theorem GitWorld.Served.pass {world next : GitWorld} (served : world.Served) {event : PassEvent}
    (stepped : checkGitInfo world world.pass event = some next) : next.Served := by
  generalize place : world.pass = pass at stepped
  have quiet : pass ≠ .announcing → world.pass ≠ .announcing := fun other => place ▸ other
  cases pass with
  | idle =>
    cases event <;> cases stepped
    exact served.same rfl rfl id fun _ => quiet nofun
  | listing =>
    cases event with
    | lists outcome =>
      cases outcome <;> cases stepped <;> exact served.same rfl rfl id fun _ => quiet nofun
    | _ => cases stepped
  | resolving dirs =>
    cases event <;> cases stepped
    exact served.same rfl rfl id fun _ => quiet nofun
  | swapping seen =>
    cases event <;> cases stepped
    intro list answered
    obtain ⟨known, sessions, rfl, has⟩ := served list answered
    refine ⟨known, sessions, rfl, fun heard silent dir info found => ?_⟩
    -- A result that differs from the cache is announced first.
    cases changed : gitChanged world.gitSeen seen with
    | true => exact absurd (if_pos changed) silent
    | false => exact has heard (quiet nofun) dir info (lookup_of_not_gitChanged changed found)
  | announcing =>
    cases event <;> cases stepped
    intro list answered
    obtain ⟨known, sessions, rfl, -⟩ := served list answered
    exact ⟨known, sessions, rfl, fun heard => nomatch heard.1⟩

theorem GitWorld.Served.observe {world : GitWorld} (served : world.Served)
    (base : SessionWorld) : (world.observe base).Served :=
  served.same rfl rfl (fun heard => ⟨Nat.eq_zero_of_add_eq_zero_right heard.1, heard.2⟩) id

/-! ### What the last pass covers -/

/-- Every running row has its directory among these. -/
def SessionTable.RunsIn (table : SessionTable) (dirs : List (List Char)) : Prop :=
  ∀ row ∈ table.rows, row.status = .running → row.dir ∈ dirs

/-- What a pass holds covers the running rows. -/
def GitPass.Covers (table : SessionTable) : GitPass → Prop
  | .resolving dirs => table.RunsIn dirs
  | .swapping seen => table.RunsIn (seen.map Prod.fst)
  | .idle | .listing | .announcing => True

/-- The cache is what the last pass resolved. That covers the running rows, and so does what the
pass under way holds, as long as no session has changed since it began. -/
structure GitWorld.Covered (world : GitWorld) : Prop where
  early : world.began ≤ world.changes
  place : world.began = world.changes → world.pass.Covers world.base.table
  kept : ∀ pass, world.lastPass = some pass → pass.seen = world.gitSeen ∧
    pass.began ≤ world.changes ∧
    (pass.began = world.changes → world.base.table.RunsIn (pass.seen.map Prod.fst))

theorem SessionTable.runsIn_liveDirs (table : SessionTable) :
    table.RunsIn (liveDirs table.listSessions) := by
  intro row member running
  exact mem_liveDirs.mpr ⟨scanSession row, List.mem_map_of_mem member, running, rfl⟩

theorem GitWorld.Covered.pass {world next : GitWorld} (covered : world.Covered)
    {event : PassEvent} (stepped : checkGitInfo world world.pass event = some next) :
    next.Covered := by
  have holds := covered.place
  generalize place : world.pass = pass at stepped holds
  cases pass with
  | idle =>
    cases event <;> cases stepped
    exact ⟨le_refl _, fun _ => trivial, covered.kept⟩
  | listing =>
    cases event with
    | lists outcome =>
      cases outcome <;> cases stepped
      · exact ⟨covered.early, fun _ => world.base.table.runsIn_liveDirs, covered.kept⟩
      · exact ⟨covered.early, fun _ => trivial, covered.kept⟩
    | _ => cases stepped
  | resolving dirs =>
    cases event with
    | resolves repoWebURL branchStatus =>
      cases stepped
      refine ⟨covered.early, fun same => ?_, covered.kept⟩
      show world.base.table.RunsIn ((resolveGit _ _ repoWebURL branchStatus dirs).1.map Prod.fst)
      rw [resolveGit_dirs]
      exact holds same
    | _ => cases stepped
  | swapping seen =>
    cases event <;> cases stepped
    refine ⟨covered.early, fun _ => ?_, ?_⟩
    · show GitPass.Covers _ (if _ then _ else _)
      split <;> exact trivial
    · rintro _ ⟨⟩
      exact ⟨rfl, covered.early, holds⟩
  | announcing =>
    cases event <;> cases stepped
    exact ⟨covered.early, fun _ => trivial, covered.kept⟩

theorem GitWorld.Covered.observe {world : GitWorld} (covered : world.Covered)
    (base : SessionWorld) : (world.observe base).Covered := by
  by_cases same : base.table.rows = world.base.table.rows
  · have runs : ∀ dirs, world.base.table.RunsIn dirs → base.table.RunsIn dirs :=
      fun dirs before row member => before row (same ▸ member)
    have count : (world.observe base).changes = world.changes := if_pos same
    refine ⟨count ▸ covered.early, fun began => ?_, fun pass last => ?_⟩
    · have before := covered.place (count ▸ began)
      show world.pass.Covers base.table
      generalize world.pass = pass at before
      cases pass with
      | resolving dirs => exact runs _ before
      | swapping seen => exact runs _ before
      | _ => exact trivial
    · obtain ⟨cache, early, covers⟩ := covered.kept pass last
      exact ⟨cache, count ▸ early, fun began => runs _ (covers (count ▸ began))⟩
  · have count : (world.observe base).changes = world.changes + 1 := if_neg same
    refine ⟨?_, fun began => ?_, fun pass last => ?_⟩
    · rw [count]
      exact Nat.le_succ_of_le covered.early
    · have later : world.began = world.changes + 1 := began.trans count
      have early := covered.early
      omega
    · obtain ⟨cache, early, -⟩ := covered.kept pass last
      rw [count]
      exact ⟨cache, Nat.le_succ_of_le early, fun began => by omega⟩

/-! ### Running rows and who announces their end -/

/-- The session has its row still, and the row is running. -/
def SessionTable.Live (table : SessionTable) (session : Session) : Prop :=
  ∃ row ∈ table.rows, row.id = session.id ∧ row.dir = session.dir ∧ row.status = .running

/-- A session that stops running is announced next, or was deleted by its launch. -/
def SessionTable.Loses (table next : SessionTable) (after : SessionProc) (undone : List Nat) :
    Prop :=
  ∀ session, table.Live session → next.Live session ∨ after.announces session.id ∨
    session.id ∈ undone

section Losses

variable {table next : SessionTable} {after : SessionProc} {undone : List Nat}

theorem SessionTable.Loses.same (after : SessionProc) (undone : List Nat) :
    table.Loses table after undone :=
  fun _ live => .inl live

theorem SessionTable.Loses.createSession (toolId now : Int) (dir : List Char) :
    table.Loses (table.createSession toolId dir now) after undone := by
  rintro session ⟨row, member, here⟩
  exact .inl ⟨row, List.mem_append_left _ member, here⟩

theorem SessionTable.Loses.deleteSession {id : Nat}
    (known : after.announces id ∨ id ∈ undone) :
    table.Loses (table.deleteSession id) after undone := by
  rintro session ⟨row, member, same, here⟩
  by_cases other : row.id = id
  · rw [← same, other]
    exact .inr known
  · exact .inl ⟨row, SessionTable.mem_deleteSession member other, same, here⟩

theorem SessionTable.Loses.setSessionStatus {id : Nat} (status : SessionStatus)
    (known : after.announces id) :
    table.Loses (table.setSessionStatus id status) after undone := by
  rintro session ⟨row, member, same, here⟩
  by_cases other : row.id = id
  · rw [← same, other]
    exact .inr (.inl known)
  · exact .inl ⟨row, SessionTable.mem_update member other, same, here⟩

theorem SessionTable.Loses.setSessionLabel {id : Nat} {label : List Char}
    (written : table.setSessionLabel id label = some next) : table.Loses next after undone := by
  unfold SessionTable.setSessionLabel at written
  split at written <;> cases written
  rintro session ⟨row, member, same, dir, running⟩
  refine .inl ⟨_, List.mem_map_of_mem member, ?_, ?_, ?_⟩ <;> split <;> assumption

end Losses

/-- A step of a handler announces what its table loses, and one that owes an event sends it. -/
structure Ends (world next : SessionWorld) (proc after : SessionProc) (undone : List Nat) :
    Prop where
  loses : world.table.Loses next.table after undone
  sends : ∀ id, proc.announces id → world.events.length < next.events.length

theorem handleCreateSession_ends {world next : SessionWorld} {proc after : CreateSession}
    {outcome : Outcome} (stepped : handleCreateSession world proc outcome = some (next, after)) :
    Ends world next (.create proc) (.create after)
      (SessionProc.undoes (.create proc) outcome) where
  sends id owes := owes.elim
  loses := by
    have writes := handleCreateSession_writes stepped
    generalize next.table = written at writes ⊢
    cases writes with
    | nothing => exact .same _ _
    | inserts launch command now => exact .createSession launch.toolID now launch.workdir
    | labels launch command session written => exact .setSessionLabel written
    | skips | drops | deletes => exact .deleteSession (.inr (List.mem_singleton_self _))

theorem SessionProc.Does.ends {world next : SessionWorld} {proc after : SessionProc}
    {undone : List Nat} (does : SessionProc.Does world proc after next) :
    Ends world next proc after undone := by
  cases does with
  | idles silent table events =>
    exact ⟨table ▸ .same after undone, fun id owes => absurd owes (silent id)⟩
  | marks session silent owed =>
    exact ⟨.setSessionStatus .dead owed, fun id owes => absurd owes (silent id)⟩
  | deletes session silent owed =>
    exact ⟨.deleteSession (.inl owed), fun id owes => absurd owes (silent id)⟩
  | announces event =>
    refine ⟨.same after undone, fun _ _ => ?_⟩
    simp [SessionWorld.broadcast]

theorem serveSession_ends {world next : SessionWorld} {proc after : SessionProc}
    {outcome : Outcome} (stepped : serveSession world proc outcome = some (next, after)) :
    Ends world next proc after (proc.undoes outcome) := by
  rcases serveSession_does stepped with ⟨create, place, rfl, rfl, done⟩ | ⟨-, does⟩
  · exact handleCreateSession_ends done
  · exact does.ends

/-! ### Runs -/

/-- The latest fetch has read the session as running, and it no longer is, while the client has
heard of every event so far. -/
structure GitWorld.Stale (world : GitWorld) (session : Session) : Prop where
  heard : world.Heard
  shown : session ∈ world.latest.sessions
  running : session.status = .running
  gone : ¬ world.base.table.Live session

theorem SessionTable.live_of_listSessions {table : SessionTable} {session : Session}
    (listed : session ∈ table.listSessions) (running : session.status = .running) :
    table.Live session := by
  obtain ⟨row, member, rfl⟩ := List.mem_map.mp listed
  exact ⟨row, member, rfl, rfl, running⟩

theorem GitWorld.Stale.of_stepClient {world next : GitWorld} {event : ClientEvent}
    (stepped : stepClient world event = some next) {session : Session}
    (stale : next.Stale session) : world.Stale session := by
  obtain ⟨step, frame⟩ := stepClient_cases stepped
  have base : next.base = world.base := by rw [frame]
  obtain ⟨heard, shown, running, gone⟩ := stale
  rw [base] at gone
  cases step with
  | issued latest =>
    rw [latest] at shown
    cases shown
  | read latest =>
    rw [latest] at shown
    exact absurd (SessionTable.live_of_listSessions shown running) gone
  | served sessions before latest settled =>
    rw [latest, SessionFetch.sessions, sessionsJSON_sessions] at shown
    exact ⟨settled heard, by rwa [before], running, gone⟩
  | same latest settled => exact ⟨settled heard, latest ▸ shown, running, gone⟩

theorem GitWorld.Stale.of_checkGitInfo {world next : GitWorld} {event : PassEvent}
    (stepped : checkGitInfo world world.pass event = some next) {session : Session}
    (stale : next.Stale session) : world.Stale session := by
  have frame : next.base = world.base ∧ next.latest = world.latest ∧
      (next.Heard → world.Heard) := by
    generalize world.pass = pass at stepped
    cases pass with
    | listing =>
      cases event with
      | lists outcome => cases outcome <;> cases stepped <;> exact ⟨rfl, rfl, id⟩
      | _ => cases stepped
    | announcing =>
      cases event <;> cases stepped
      exact ⟨rfl, rfl, fun heard => nomatch heard.1⟩
    | _ =>
      cases event <;> cases stepped
      exact ⟨rfl, rfl, id⟩
  obtain ⟨base, latest, settled⟩ := frame
  obtain ⟨heard, shown, running, gone⟩ := stale
  exact ⟨settled heard, latest ▸ shown, running, base ▸ gone⟩

/-- A step of a handler that deletes no row as read by the latest fetch makes a session stale
only if it announces its end next, and none stays stale that it has announced. -/
theorem GitWorld.Stale.of_observe {world : GitWorld} {base : SessionWorld}
    {proc after : SessionProc} {undone : List Nat} (ends : Ends world.base base proc after undone)
    (unread : ∀ id ∈ undone, id ∉ world.latest.sessions.map Session.id)
    {session : Session} (stale : (world.observe base).Stale session) :
    after.announces session.id ∨ world.Stale session ∧ ¬ proc.announces session.id := by
  obtain ⟨⟨queue, queued⟩, shown, running, gone⟩ := stale
  obtain ⟨before, silent⟩ := Nat.add_eq_zero_iff.mp queue
  have quiet : ¬ proc.announces session.id := fun owes => by
    have sent := ends.sends session.id owes
    omega
  by_cases live : world.base.table.Live session
  · rcases ends.loses session live with still | announced | deleted
    · exact absurd still gone
    · exact .inl announced
    · exact absurd (List.mem_map_of_mem shown) (unread session.id deleted)
  · exact .inr ⟨⟨⟨before, queued⟩, shown, running, live⟩, quiet⟩

/-- In every run in which launches delete no row that the latest fetch has read, the end of a
session that the client still takes to be running is about to be announced. -/
theorem stale_owed (start : SessionWorld) {final : Pool GitWorld SessionProc}
    {moves : List (Move SessionRequest Outcome GitOutside)}
    (run : Run gitMachine.next DeletesUnread start.uninspected moves final) :
    final.Owed GitWorld.Stale fun _ proc session => proc.announces session.id := by
  refine Machine.owed_of_run ?_ ?_ ?_ run
  · intro session stale
    cases stale.shown
  · intro pool index outcome proc world after _ unread present stepped session stale
    obtain ⟨⟨base, place⟩, served, same⟩ := Option.map_eq_some_iff.mp stepped
    cases same
    exact (stale.of_observe (serveSession_ends served) (unread proc present)).imp_right
      fun still => ⟨still.1, still.2, fun _ _ owes => owes⟩
  · intro world event next occurred session stale
    refine ⟨?_, fun _ owes => owes⟩
    cases event with
    | sessions event =>
      obtain ⟨base, happened, rfl⟩ := Option.map_eq_some_iff.mp occurred
      obtain ⟨heard, shown, running, gone⟩ := stale
      exact ⟨heard, shown, running, occurSession_table happened ▸ gone⟩
    | pass event => exact stale.of_checkGitInfo occurred
    | client event => exact stale.of_stepClient occurred

theorem GitWorld.Covered.client {world next : GitWorld} (covered : world.Covered)
    {event : ClientEvent} (stepped : stepClient world event = some next) : next.Covered := by
  rw [(stepClient_cases stepped).2]
  exact ⟨covered.early, covered.place, covered.kept⟩

/-- In every run the cache holds what the last pass resolved, and the client was shown no less. -/
theorem served_covered (start : SessionWorld) {final : Pool GitWorld SessionProc}
    {moves : List (Move SessionRequest Outcome GitOutside)}
    (run : Run gitMachine.next anything start.uninspected moves final) :
    final.world.Served ∧ final.world.Covered := by
  refine run.invariant (fun pool => pool.world.Served ∧ pool.world.Covered) ⟨?_, ?_⟩ ?_
  · intro list answered
    cases answered
  · exact ⟨le_refl _, fun _ => trivial, nofun⟩
  · rintro pool move next ⟨served, covered⟩ - taken
    cases move with
    | arrive request =>
      cases taken
      exact ⟨served, covered⟩
    | advance index outcome =>
      obtain ⟨proc, world, after, -, stepped, rfl⟩ := Machine.next_advance taken
      obtain ⟨⟨base, place⟩, -, same⟩ := Option.map_eq_some_iff.mp stepped
      cases same
      exact ⟨served.observe base, covered.observe base⟩
    | occur event =>
      obtain ⟨world, occurred, rfl⟩ := Machine.next_occur taken
      cases event with
      | sessions event =>
        obtain ⟨base, happened, rfl⟩ := Option.map_eq_some_iff.mp occurred
        refine ⟨served.same rfl rfl id id, covered.early, ?_, ?_⟩
        · show _ → GitPass.Covers base.table _
          rw [occurSession_table happened]
          exact covered.place
        · show ∀ pass, _ → _ ∧ _ ∧ (_ → base.table.RunsIn _)
          rw [occurSession_table happened]
          exact covered.kept
      | pass event => exact ⟨served.pass occurred, covered.pass occurred⟩
      | client event => exact ⟨served.client occurred, covered.client occurred⟩

/-- Every event is heard and every fetch delivered, and no pass has an event to send. -/
structure GitWorld.Settled (world : GitWorld) : Prop where
  heard : world.Heard
  delivered : world.fetches = []
  silent : world.pass ≠ .announcing

theorem SessionProc.not_announces_of_finished {proc : SessionProc} (finished : proc.finished = true)
    (id : Nat) : ¬ proc.announces id := by
  intro owes
  cases proc with
  | create proc => exact owes
  | kill proc =>
    cases proc <;> cases finished
    exact owes
  | dismiss proc =>
    cases proc <;> cases finished
    exact owes
  | reconcile proc =>
    cases proc <;> cases finished
    exact owes

/-- When launches delete no row that the client's latest fetch has read, no session has changed
since the last finished pass began and everything has settled, every running session in the
client's list has the git fields that the pass resolved for its directory. -/
theorem git_fields_converge (start : SessionWorld)
    {moves : List (Move SessionRequest Outcome GitOutside)} {final : Pool GitWorld SessionProc}
    (run : Run gitMachine.next DeletesUnread start.uninspected moves final)
    (answered : ∀ proc ∈ final.procs, proc.finished = true) (settled : final.world.Settled)
    {pass : FinishedPass} (last : final.world.lastPass = some pass)
    (began : pass.began = final.world.changes) :
    ∀ shown ∈ final.world.list, shown.session.status = .running →
      pass.seen.lookup shown.session.dir = some shown.git := by
  intro shown member running
  obtain ⟨served, covered⟩ := served_covered start run.unrestricted
  have latest : final.world.latest = .answered final.world.list := by
    rw [GitWorld.latest, settled.delivered]
    rfl
  obtain ⟨known, sessions, list, has⟩ := served _ latest
  obtain ⟨cache, -, covers⟩ := covered.kept pass last
  have live : final.world.base.table.Live shown.session := by
    by_contra gone
    have stale : final.world.Stale shown.session :=
      ⟨settled.heard, latest ▸ List.mem_map_of_mem member, running, gone⟩
    obtain ⟨proc, present, owes⟩ := stale_owed start run shown.session stale
    exact proc.not_announces_of_finished (answered proc present) _ owes
  obtain ⟨row, present, -, dir, runs⟩ := live
  obtain ⟨info, resolved⟩ := lookup_of_mem_keys (covers began row present runs)
  rw [dir] at resolved
  have held := has settled.heard settled.silent _ info (cache ▸ resolved)
  rw [git_of_mem_sessionsJSON (list ▸ member) running held]
  exact resolved

/-- A launch that a fetch overtakes, one that is undone before any fetch reads its row, a pass
that finds the directory of the first, and the fetch after it. -/
def inspectedLaunch : List (Move SessionRequest Outcome GitOutside) :=
  [.arrive (.create (some ⟨1, 1, []⟩)), .advance 0 .ok, .advance 0 .ok, .advance 0 .ok,
    .advance 0 .ok, .occur (.client (.reads 0)), .occur (.client (.answers 0)),
    .occur (.client .delivers), .advance 0 .ok, .advance 0 .ok, .advance 0 .ok, .advance 0 .ok,
    .advance 0 .ok, .arrive (.create (some ⟨1, 1, []⟩)), .advance 1 .ok, .advance 1 .ok,
    .advance 1 .ok, .advance 1 .ok, .advance 1 .ok, .advance 1 (.fails "exit status 1"),
    .advance 1 .ok, .occur (.pass .starts), .occur (.pass (.lists .ok)), .occur (.client .hears),
    .occur (.client (.reads 0)),
    .occur (.pass (.resolves (fun _ => "https://github.com/a/b")
      fun _ => ⟨"main", "clean", 0, 1, false⟩)),
    .occur (.client (.answers 0)), .occur (.pass .swaps), .occur (.client .delivers),
    .occur (.pass .announces), .occur (.client .hears), .occur (.client (.reads 0)),
    .occur (.client (.answers 0)), .occur (.client .delivers)]

theorem inspected_launch_shown :
    ∃ final, exec gitMachine.next idleWorld.uninspected inspectedLaunch = some final ∧
      final.world.list.map (fun shown => shown.git.url) = ["https://github.com/a/b"] ∧
      ∀ shown ∈ final.world.list, shown.session.status = .running →
        final.world.gitSeen.lookup shown.session.dir = some shown.git := by
  refine ⟨_, rfl, rfl, ?_⟩
  have run : Run gitMachine.next DeletesUnread idleWorld.uninspected inspectedLaunch _ :=
    Run.of_exec rfl (by decide)
  exact git_fields_converge idleWorld run (by decide) ⟨⟨rfl, rfl⟩, rfl, by decide⟩ rfl rfl

/-- A fetch reads the row of a launch whose tmux session does not start; the row is deleted
without an event, and a pass begins after it. -/
def undoneUnderFetch : List (Move SessionRequest Outcome GitOutside) :=
  [.arrive (.create (some ⟨1, 1, []⟩)), .advance 0 .ok, .advance 0 .ok, .advance 0 .ok,
    .advance 0 .ok, .occur (.client (.reads 0)), .occur (.client (.answers 0)),
    .occur (.client .delivers), .advance 0 .ok, .advance 0 (.fails "exit status 1"),
    .advance 0 .ok, .occur (.pass .starts), .occur (.pass (.lists .ok)),
    .occur (.pass (.resolves (fun _ => "") fun _ => ⟨"main", "clean", 0, 0, false⟩)),
    .occur (.pass .swaps)]

/-- The client goes on to show the session as running, and the pass has resolved nothing for its
directory. -/
theorem undone_launch_unresolved :
    ¬ ∀ (start : SessionWorld) (moves : List (Move SessionRequest Outcome GitOutside))
      (final : Pool GitWorld SessionProc) (pass : FinishedPass),
      Run gitMachine.next anything start.uninspected moves final →
      (∀ proc ∈ final.procs, proc.finished = true) → final.world.Settled →
      final.world.lastPass = some pass → pass.began = final.world.changes →
      ∀ shown ∈ final.world.list, shown.session.status = .running →
        pass.seen.lookup shown.session.dir = some shown.git := by
  intro always
  have run : Run gitMachine.next anything idleWorld.uninspected undoneUnderFetch _ :=
    Run.of_exec_anything rfl
  have resolved := always idleWorld _ _ _ run (by decide) ⟨⟨rfl, rfl⟩, rfl, by decide⟩ rfl rfl _
    (List.mem_cons_self ..) rfl
  cases resolved

end Multimux
