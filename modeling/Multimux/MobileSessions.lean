/-
This file models the sessions that a phone steps through. Their list merges two
orders: the sessions that tiles show come first, in the order of their first
tiles, and the other running ones follow in the order of the daemons and their
lists. Both loops keep an entry where its key first comes up, so the list is
what the library keeps of the candidates of both. The selection is a key with
an index into whatever list there is. The list changes under it in any way;
what every step keeps is only that the index is not negative, and from that
alone the selection can always be aimed again.
-/

import Multimux.FirstOccurrences
import Multimux.Layout
import Multimux.SessionFetches

namespace Multimux

/-! ### The list -/

/-- What the list reads of a session as a daemon serves it. -/
structure ListedSession where
  id : Nat
  status : String
  deriving DecidableEq

/-- The lists that have arrived, by the ids of their servers. -/
abbrev SessionsByServer := String → Option (List ListedSession)

/-- An entry, whose key is that of the tile that would show it. -/
structure MobileSession where
  key : String
  server : SessionLists.Server
  session : ListedSession
  keyed : key = tileKey ⟨server.id, session.id⟩
  deriving DecidableEq

/-- A listed session of a server. -/
def mobileSession (server : SessionLists.Server) (session : ListedSession) : MobileSession :=
  ⟨tileKey ⟨server.id, session.id⟩, server, session, rfl⟩

/-- `sessionsByServer[server.id] ?? []`. -/
def sessionsOf (sessionsByServer : SessionsByServer) (server : SessionLists.Server) :
    List ListedSession :=
  (sessionsByServer server.id).getD []

/-- The running sessions by their keys. -/
def sessionByKey (servers : List SessionLists.Server) (sessionsByServer : SessionsByServer) :
    String → Option MobileSession :=
  servers.foldl (fun byKey server =>
    (sessionsOf sessionsByServer server).foldl (fun byKey session =>
      if session.status = "running" then
        Function.update byKey (tileKey ⟨server.id, session.id⟩)
          (some (mobileSession server session))
      else byKey) byKey) fun _ => none

/-- The two variables that the loops write. -/
structure Gathered where
  seen : Finset String
  result : List MobileSession

/-- What both loops do with a key. -/
def Gathered.push (gathered : Gathered) (byKey : String → Option MobileSession) (key : String) :
    Gathered :=
  match byKey key with
  | some entry =>
    if key ∉ gathered.seen then ⟨insert key gathered.seen, gathered.result ++ [entry]⟩ else gathered
  | none => gathered

/-- What the first loop does with a tile. -/
def Gathered.pushTile (servers : List SessionLists.Server) (byKey : String → Option MobileSession)
    (gathered : Gathered) : Option Tile → Gathered
  | some tile =>
    if tile.serverId ∈ servers.map (·.id) then gathered.push byKey (tileKey tile) else gathered
  | none => gathered

/-- The running sessions in the order of the carousel: those with tiles first, each of them once. -/
def orderMobileSessions (layout : Layout) (servers : List SessionLists.Server)
    (sessionsByServer : SessionsByServer) : List MobileSession :=
  let byKey := sessionByKey servers sessionsByServer
  let placed := layout.tiles.foldl (Gathered.pushTile servers byKey) ⟨∅, []⟩
  let all := servers.foldl (fun gathered server =>
    (sessionsOf sessionsByServer server).foldl (fun gathered session =>
      gathered.push byKey (tileKey ⟨server.id, session.id⟩)) gathered) placed
  all.result

/-! ### The selection -/

/-- What the carousel remembers of its selection. -/
structure MobileSelection where
  key : Option String
  index : Int
  deriving DecidableEq

/-- `sessions.findIndex((session) => session.key === key)`. -/
def indexOfKey (sessions : List MobileSession) (key : Option String) : Int :=
  match sessions.findIdx? fun session => some session.key = key with
  | some index => index
  | none => -1

/-- `sessions[index]`. -/
def sessionAt (sessions : List MobileSession) (index : Int) : Option MobileSession :=
  if 0 ≤ index then sessions[index.toNat]? else none

/-- Nothing where it throws, as it reads the key of an entry that is not there. -/
def reconcileMobileSelection (previous : MobileSelection) (sessions : List MobileSession) :
    Option MobileSelection :=
  if sessions.length = 0 then some ⟨none, 0⟩
  else
    let retained := indexOfKey sessions previous.key
    let index : Int := if 0 ≤ retained then retained else min previous.index (sessions.length - 1)
    (sessionAt sessions index).map fun session => ⟨some session.key, index⟩

/-- The component: the list it was rendered with, and what it remembers. -/
structure MobileView where
  sessions : List MobileSession
  selection : MobileSelection
  pendingSelectionKey : Option String

/-- The component before it is rendered with a list. -/
def MobileView.initial : MobileView := ⟨[], ⟨none, 0⟩, none⟩

/-- What happens to the component. -/
inductive MobileAction
  | render (layout : Layout) (servers : List SessionLists.Server)
      (sessionsByServer : SessionsByServer)
  | effect
  | created (server : SessionLists.Server) (started : List ListedSession)
  | moveSelection (offset : Int)

/-- The effect that follows the list: the session that was just started, once it is listed, and
else the selection aimed again. -/
def MobileView.effect (view : MobileView) : Option MobileView :=
  let pendingIndex :=
    if view.pendingSelectionKey.isSome then indexOfKey view.sessions view.pendingSelectionKey
    else -1
  if 0 ≤ pendingIndex then
    some { view with
      selection := ⟨view.pendingSelectionKey, pendingIndex⟩
      pendingSelectionKey := none }
  else
    (reconcileMobileSelection view.selection view.sessions).map fun selection =>
      { view with selection }

/-- Sessions were started: the first of them is to be selected once it is listed. -/
def MobileView.created (view : MobileView) (server : SessionLists.Server)
    (started : List ListedSession) : MobileView :=
  match started with
  | first :: _ => { view with pendingSelectionKey := some (tileKey ⟨server.id, first.id⟩) }
  | [] => view

/-- The selection moves by an offset, within the list. -/
def MobileView.moveSelection (view : MobileView) (offset : Int) : Option MobileView :=
  (reconcileMobileSelection view.selection view.sessions).map fun resolved =>
    let index : Int := max 0 (min (view.sessions.length - 1) (resolved.index + offset))
    { view with selection := ⟨(sessionAt view.sessions index).map MobileSession.key, index⟩ }

/-- One action; it has no result where the source would throw. -/
def MobileView.step (view : MobileView) : MobileAction → Option MobileView
  | .render layout servers sessionsByServer =>
    some { view with sessions := orderMobileSessions layout servers sessionsByServer }
  | .effect => view.effect
  | .created server started => some (view.created server started)
  | .moveSelection offset => view.moveSelection offset

/-! ### What is asked of them -/

/-- What is assumed of the lists: servers and the sessions of each have distinct ids. -/
structure DistinctIds (servers : List SessionLists.Server)
    (sessionsByServer : SessionsByServer) : Prop where
  serverIds : (servers.map (·.id)).Nodup
  sessionIds : ∀ server ∈ servers, ((sessionsOf sessionsByServer server).map (·.id)).Nodup

/-- The running sessions of the listed servers, in server and list order. -/
def runningSessions (servers : List SessionLists.Server)
    (sessionsByServer : SessionsByServer) : List MobileSession :=
  servers.flatMap fun server =>
    ((sessionsOf sessionsByServer server).filter (·.status = "running")).map (mobileSession server)

/-- The tile that shows an entry. -/
def MobileSession.tile (entry : MobileSession) : Tile := ⟨entry.server.id, entry.session.id⟩

/-- Each running session once and nothing else: first those that have a tile, by their first
tiles, and then the rest in server and list order. -/
structure MobileOrder (layout : Layout) (servers : List SessionLists.Server)
    (sessionsByServer : SessionsByServer) (result : List MobileSession) : Prop where
  running : ∀ entry, entry ∈ result ↔ entry ∈ runningSessions servers sessionsByServer
  once : (result.map MobileSession.key).Nodup
  order : ∃ front, (∀ entry ∈ front, some entry.tile ∈ layout.tiles) ∧
    front.Pairwise (fun one other =>
      layout.tiles.idxOf (some one.tile) < layout.tiles.idxOf (some other.tile)) ∧
    result = front ++ (runningSessions servers sessionsByServer).filter fun entry =>
      some entry.tile ∉ layout.tiles

/-- An index into the list, unless it is empty, whose entry carries the selected key, which is the
previous one if that is still listed. -/
structure Aimed (sessions : List MobileSession) (previous resolved : MobileSelection) : Prop where
  inside : sessions ≠ [] → ∃ session, sessionAt sessions resolved.index = some session ∧
    resolved.key = some session.key
  outside : sessions = [] → resolved = ⟨none, 0⟩
  retained : previous.key ∈ sessions.map (some ·.key) → resolved.key = previous.key

/-! ### Keys -/

/-- No digit is a colon, so the last colon of a key ends the id of the server. -/
theorem tileKey_injective : Function.Injective tileKey := by
  intro one other same
  have noColon : ∀ tile : Tile,
      ∀ letter ∈ (Nat.toDigits 10 tile.sessionId).reverse, decide (letter ≠ ':') = true := by
    intro tile letter member
    have digit := Nat.isDigit_of_mem_toDigits (by decide) (by decide) (List.mem_reverse.mp member)
    refine decide_eq_true ?_
    rintro rfl
    exact absurd digit (by decide)
  have letters : ∀ tile : Tile, (tileKey tile).toList.reverse =
      (Nat.toDigits 10 tile.sessionId).reverse ++ ':' :: tile.serverId.toList.reverse := by
    intro tile
    simp [tileKey]
  have digits : ∀ tile : Tile, (tileKey tile).toList.reverse.takeWhile (· ≠ ':') =
      (Nat.toDigits 10 tile.sessionId).reverse := by
    intro tile
    rw [letters, List.takeWhile_append_of_pos (noColon tile)]
    simp
  have sameDigits := digits one
  rw [same, digits other, List.reverse_inj] at sameDigits
  have ids : other.sessionId = one.sessionId := by
    have values := congrArg (Nat.ofDigitChars 10 · 0) sameDigits
    simpa only [Nat.ofDigitChars_ten_toDigits] using values
  have servers := letters one
  rw [same, letters other, sameDigits] at servers
  have serverIds := List.reverse_inj.mp (List.cons.inj (List.append_cancel_left servers)).2
  exact Tile.mk.injEq .. ▸ ⟨(String.toList_inj.mp serverIds).symm, ids.symm⟩

theorem MobileSession.key_eq (entry : MobileSession) : entry.key = tileKey entry.tile :=
  entry.keyed

theorem MobileSession.ext_of {one other : MobileSession} (server : one.server = other.server)
    (session : one.session = other.session) : one = other := by
  obtain ⟨key, _, _, keyed⟩ := one
  obtain ⟨otherKey, _, _, otherKeyed⟩ := other
  subst server session keyed otherKeyed
  rfl

/-! ### The running sessions -/

section List

variable {layout : Layout} {servers : List SessionLists.Server}
  {sessionsByServer : SessionsByServer}

theorem mem_runningSessions {entry : MobileSession} :
    entry ∈ runningSessions servers sessionsByServer ↔ entry.server ∈ servers ∧
      entry.session ∈ sessionsOf sessionsByServer entry.server ∧
        entry.session.status = "running" := by
  simp only [runningSessions, List.mem_flatMap, List.mem_map, List.mem_filter, decide_eq_true_eq]
  constructor
  · rintro ⟨server, listed, session, ⟨member, running⟩, rfl⟩
    exact ⟨listed, member, running⟩
  · exact fun ⟨listed, member, running⟩ =>
      ⟨entry.server, listed, entry.session, ⟨member, running⟩, MobileSession.ext_of rfl rfl⟩

theorem DistinctIds.same_of_tile (distinct : DistinctIds servers sessionsByServer)
    {entry : MobileSession} {server : SessionLists.Server} {session : ListedSession}
    (running : entry ∈ runningSessions servers sessionsByServer) (listed : server ∈ servers)
    (member : session ∈ sessionsOf sessionsByServer server)
    (same : entry.tile = ⟨server.id, session.id⟩) : entry = mobileSession server session := by
  obtain ⟨entryListed, entryMember, -⟩ := mem_runningSessions.mp running
  obtain ⟨serverId, sessionId⟩ := Tile.mk.inj same
  have sameServer := List.inj_on_of_nodup_map distinct.serverIds entryListed listed serverId
  rw [sameServer] at entryMember
  exact MobileSession.ext_of sameServer
    (List.inj_on_of_nodup_map (distinct.sessionIds server listed) entryMember member sessionId)

theorem DistinctIds.keys_nodup (distinct : DistinctIds servers sessionsByServer) :
    ((runningSessions servers sessionsByServer).map MobileSession.key).Nodup := by
  rw [runningSessions, List.map_flatMap, List.nodup_flatMap]
  constructor
  · intro server listed
    have ids : ((sessionsOf sessionsByServer server).filter (·.status = "running")
        |>.map (·.id)).Nodup :=
      (distinct.sessionIds server listed).sublist (List.filter_sublist.map _)
    rw [List.map_map]
    refine List.Nodup.map_on ?_ ids.of_map
    intro one oneListed other otherListed same
    have sameId := (Tile.mk.inj (tileKey_injective same)).2
    exact List.inj_on_of_nodup_map ids oneListed otherListed sameId
  · refine (List.pairwise_map.mp distinct.serverIds).imp fun {one other} apart => ?_
    intro key oneKeyed otherKeyed
    simp only [List.map_map, List.mem_map, Function.comp_apply] at oneKeyed otherKeyed
    obtain ⟨session, -, rfl⟩ := oneKeyed
    obtain ⟨otherSession, -, same⟩ := otherKeyed
    exact apart (Tile.mk.inj (tileKey_injective same)).1.symm

theorem sessionByKey_eq_tableOf : sessionByKey servers sessionsByServer =
    tableOf MobileSession.key (runningSessions servers sessionsByServer) := by
  simp only [tableOf, runningSessions, List.foldl_flatMap, List.foldl_map, List.foldl_filter,
    decide_eq_true_eq]
  rfl

/-- The table has exactly the running sessions. -/
theorem DistinctIds.sessionByKey_eq_some (distinct : DistinctIds servers sessionsByServer)
    {tile : Tile} {entry : MobileSession} :
    sessionByKey servers sessionsByServer (tileKey tile) = some entry ↔
      entry ∈ runningSessions servers sessionsByServer ∧ entry.tile = tile := by
  rw [sessionByKey_eq_tableOf, tableOf_eq_some distinct.keys_nodup, entry.key_eq,
    tileKey_injective.eq_iff]

/-! ### The loops -/

/-- What a loop has gathered: the keys seen are those of the entries, and they are the table's. -/
structure Gathered.Fits (byKey : String → Option MobileSession) (gathered : Gathered) :
    Prop where
  seen : ∀ key, key ∈ gathered.seen ↔ ∃ entry ∈ gathered.result, entry.key = key
  found : ∀ entry ∈ gathered.result, byKey entry.key = some entry

theorem Gathered.fits_push {byKey : String → Option MobileSession} {gathered : Gathered}
    (keyed : ∀ key entry, byKey key = some entry → entry.key = key)
    (fits : gathered.Fits byKey) (key : String) : (gathered.push byKey key).Fits byKey ∧
      (gathered.push byKey key).result = keepNew gathered.result (byKey key) := by
  rw [Gathered.push]
  cases found : byKey key with
  | none => exact ⟨fits, rfl⟩
  | some entry =>
    obtain rfl := keyed key entry found
    -- The entry is the table's at its key, so it is kept exactly where its key was seen.
    have known : entry.key ∈ gathered.seen ↔ entry ∈ gathered.result := by
      rw [fits.seen]
      constructor
      · rintro ⟨other, kept, same⟩
        have again := fits.found other kept
        rw [same, found] at again
        exact Option.some.inj again ▸ kept
      · exact fun kept => ⟨entry, kept, rfl⟩
    dsimp only
    by_cases kept : entry ∈ gathered.result
    · rw [if_neg (not_not.mpr (known.mpr kept)), keepNew, if_pos kept]
      exact ⟨fits, rfl⟩
    · rw [if_pos (mt known.mp kept), keepNew, if_neg kept]
      refine ⟨⟨fun name => ?_, fun other listed => ?_⟩, rfl⟩
      · rw [Finset.mem_insert, fits.seen]
        simp only [List.mem_append, List.mem_singleton, or_and_right, exists_or, exists_eq_left]
        rw [or_comm, eq_comm]
      · rcases List.mem_append.mp listed with earlier | last
        · exact fits.found other earlier
        · rw [List.mem_singleton.mp last]
          exact found

/-- A loop whose rounds each push a candidate or nothing gathers what the library keeps. -/
theorem Gathered.foldl_push {Item : Type*} {byKey : String → Option MobileSession}
    {round : Gathered → Item → Gathered} (candidate : Item → Option MobileSession)
    (pushes : ∀ gathered item, gathered.Fits byKey → (round gathered item).Fits byKey ∧
      (round gathered item).result = keepNew gathered.result (candidate item))
    (items : List Item) {gathered : Gathered} (fits : gathered.Fits byKey) :
    (items.foldl round gathered).Fits byKey ∧ (items.foldl round gathered).result =
      (items.map candidate).foldl keepNew gathered.result := by
  induction items generalizing gathered with
  | nil => exact ⟨fits, rfl⟩
  | cons item rest inductionHypothesis =>
    obtain ⟨next, kept⟩ := pushes gathered item fits
    rw [List.foldl_cons, List.map_cons, List.foldl_cons, ← kept]
    exact inductionHypothesis next

/-- What a tile proposes. -/
def tileCandidate (servers : List SessionLists.Server) (byKey : String → Option MobileSession)
    (tile : Option Tile) : Option MobileSession :=
  tile.bind fun tile =>
    if tile.serverId ∈ servers.map (·.id) then byKey (tileKey tile) else none

theorem Gathered.fits_pushTile {byKey : String → Option MobileSession}
    (keyed : ∀ key entry, byKey key = some entry → entry.key = key) (gathered : Gathered)
    (tile : Option Tile) (fits : gathered.Fits byKey) :
    (gathered.pushTile servers byKey tile).Fits byKey ∧
      (gathered.pushTile servers byKey tile).result =
        keepNew gathered.result (tileCandidate servers byKey tile) := by
  cases tile with
  | none => exact ⟨fits, rfl⟩
  | some tile =>
    rw [Gathered.pushTile, tileCandidate, Option.bind_some]
    split
    next => exact Gathered.fits_push keyed fits _
    next => exact ⟨fits, rfl⟩

/-- The keys of the sessions of the servers, running or not. -/
def listKeys (servers : List SessionLists.Server) (sessionsByServer : SessionsByServer) :
    List String :=
  servers.flatMap fun server =>
    (sessionsOf sessionsByServer server).map fun session => tileKey ⟨server.id, session.id⟩

/-- The list is what the library keeps of what the tiles and then the lists propose. -/
theorem DistinctIds.orderMobileSessions_eq (distinct : DistinctIds servers sessionsByServer)
    (layout : Layout) : orderMobileSessions layout servers sessionsByServer =
      let byKey := sessionByKey servers sessionsByServer
      firstOccurrences (layout.tiles.map (tileCandidate servers byKey) ++
        (listKeys servers sessionsByServer).map byKey) := by
  have keyed : ∀ key entry, sessionByKey servers sessionsByServer key = some entry →
      entry.key = key := by
    intro key entry found
    rw [sessionByKey_eq_tableOf, tableOf_eq_some distinct.keys_nodup] at found
    exact found.2
  have blank : (⟨∅, []⟩ : Gathered).Fits (sessionByKey servers sessionsByServer) :=
    ⟨fun key => by simp, fun entry listed => absurd listed List.not_mem_nil⟩
  have tiles := Gathered.foldl_push (tileCandidate servers _)
    (Gathered.fits_pushTile keyed) layout.tiles blank
  have lists := Gathered.foldl_push (sessionByKey servers sessionsByServer)
    (fun gathered key fits => Gathered.fits_push keyed fits key)
    (listKeys servers sessionsByServer) tiles.1
  rw [firstOccurrences, List.foldl_append]
  rw [tiles.2] at lists
  rw [← lists.2, listKeys, List.foldl_flatMap]
  simp only [List.foldl_map]
  rfl

theorem DistinctIds.tileCandidate_eq_some (distinct : DistinctIds servers sessionsByServer)
    {tile : Option Tile} {entry : MobileSession} :
    tileCandidate servers (sessionByKey servers sessionsByServer) tile = some entry ↔
      entry ∈ runningSessions servers sessionsByServer ∧ tile = some entry.tile := by
  cases tile with
  | none => simp [tileCandidate]
  | some tile =>
    rw [tileCandidate, Option.bind_some]
    by_cases listed : tile.serverId ∈ servers.map (·.id)
    · rw [if_pos listed, distinct.sessionByKey_eq_some, Option.some.injEq, eq_comm (a := tile)]
    · rw [if_neg listed]
      refine iff_of_false (by simp) ?_
      rintro ⟨running, shown⟩
      obtain rfl := Option.some.inj shown
      exact listed (List.mem_map_of_mem (mem_runningSessions.mp running).1)

/-- The sessions of the servers propose the running ones. -/
theorem DistinctIds.reduceOption_listKeys (distinct : DistinctIds servers sessionsByServer) :
    ((listKeys servers sessionsByServer).map
      (sessionByKey servers sessionsByServer)).reduceOption =
        runningSessions servers sessionsByServer := by
  have proposes : ∀ server ∈ servers, ∀ session ∈ sessionsOf sessionsByServer server,
      sessionByKey servers sessionsByServer (tileKey ⟨server.id, session.id⟩) =
        if session.status = "running" then some (mobileSession server session) else none := by
    intro server listed session member
    split
    next running =>
      exact distinct.sessionByKey_eq_some.mpr
        ⟨mem_runningSessions.mpr ⟨listed, member, running⟩, rfl⟩
    next dead =>
      refine Option.eq_none_iff_forall_ne_some.mpr fun entry found => ?_
      obtain ⟨running, shown⟩ := distinct.sessionByKey_eq_some.mp found
      obtain rfl := distinct.same_of_tile running listed member shown
      exact dead (mem_runningSessions.mp running).2.2
  rw [List.reduceOption, listKeys, List.map_flatMap, List.filterMap_flatMap, runningSessions]
  refine List.flatMap_congr fun server listed => ?_
  rw [List.map_map, List.filterMap_map, ← List.filterMap_eq_map, List.filterMap_filter]
  refine List.filterMap_congr fun session member => ?_
  simpa using proposes server listed session member

/-- A running session stands among what the tiles propose where its tile stands. -/
theorem DistinctIds.idxOf_tileCandidate (distinct : DistinctIds servers sessionsByServer)
    (layout : Layout) {entry : MobileSession}
    (running : entry ∈ runningSessions servers sessionsByServer) :
    (layout.tiles.map (tileCandidate servers (sessionByKey servers sessionsByServer))).idxOf
      (some entry) = layout.tiles.idxOf (some entry.tile) := by
  rw [List.idxOf, List.findIdx_map, List.idxOf]
  congr 1
  funext tile
  rw [Bool.eq_iff_iff, Function.comp_apply, beq_iff_eq, beq_iff_eq,
    distinct.tileCandidate_eq_some, and_iff_right running]

/-- The list is ordered as it is meant to be. -/
theorem DistinctIds.mobileOrder (distinct : DistinctIds servers sessionsByServer)
    (layout : Layout) : MobileOrder layout servers sessionsByServer
      (orderMobileSessions layout servers sessionsByServer) := by
  have keys := distinct.keys_nodup
  have whole := distinct.orderMobileSessions_eq layout
  dsimp only at whole
  generalize candidates : layout.tiles.map (tileCandidate servers
    (sessionByKey servers sessionsByServer)) = fromTiles at whole
  have rest := firstOccurrences_of_nodup
    (distinct.reduceOption_listKeys ▸ keys.of_map MobileSession.key)
  rw [distinct.reduceOption_listKeys] at rest
  have shown : ∀ entry, some entry ∈ fromTiles ↔
      entry ∈ runningSessions servers sessionsByServer ∧ some entry.tile ∈ layout.tiles := by
    intro entry
    rw [← candidates, List.mem_map]
    simp only [distinct.tileCandidate_eq_some]
    constructor
    · rintro ⟨tile, listed, running, rfl⟩
      exact ⟨running, listed⟩
    · exact fun ⟨running, listed⟩ => ⟨_, listed, running, rfl⟩
  have parts : orderMobileSessions layout servers sessionsByServer =
      firstOccurrences fromTiles ++ (runningSessions servers sessionsByServer).filter fun entry =>
        some entry.tile ∉ layout.tiles := by
    rw [whole, firstOccurrences_append, rest]
    refine congrArg _ (List.filter_congr fun entry running => ?_)
    simp only [shown entry, running, true_and]
  have running : ∀ entry, entry ∈ orderMobileSessions layout servers sessionsByServer ↔
      entry ∈ runningSessions servers sessionsByServer := by
    intro entry
    rw [parts, List.mem_append, mem_firstOccurrences, shown, List.mem_filter, decide_eq_true_eq,
      ← and_or_left, and_iff_left (em _)]
  refine ⟨running, ?_, firstOccurrences fromTiles, ?_, ?_, parts⟩
  · have once : (orderMobileSessions layout servers sessionsByServer).Nodup :=
      whole ▸ firstOccurrences_nodup _
    refine once.map_on fun one listed other otherListed same => ?_
    exact List.inj_on_of_nodup_map keys ((running one).mp listed) ((running other).mp otherListed)
      same
  · exact fun entry kept => ((shown entry).mp (mem_firstOccurrences.mp kept)).2
  · refine (firstOccurrences_pairwise fromTiles).imp_of_mem ?_
    intro one other kept otherKept less
    have first := ((shown one).mp (mem_firstOccurrences.mp kept)).1
    have second := ((shown other).mp (mem_firstOccurrences.mp otherKept)).1
    rwa [← candidates, distinct.idxOf_tileCandidate layout first,
      distinct.idxOf_tileCandidate layout second] at less

end List

/-! ### Aiming the selection -/

theorem sessionAt_natCast (sessions : List MobileSession) (index : Nat) :
    sessionAt sessions index = sessions[index]? :=
  if_pos (Int.natCast_nonneg index)

/-- The index of a listed key is that of an entry with this key. -/
theorem indexOfKey_cases (sessions : List MobileSession) (key : Option String) :
    (0 ≤ indexOfKey sessions key ∧ ∃ session,
        sessionAt sessions (indexOfKey sessions key) = some session ∧ some session.key = key) ∨
      ¬ 0 ≤ indexOfKey sessions key ∧ key ∉ sessions.map (some ·.key) := by
  rw [indexOfKey]
  cases search : sessions.findIdx? fun session => some session.key = key with
  | some index =>
    obtain ⟨inside, carries, -⟩ := List.findIdx?_eq_some_iff_getElem.mp search
    refine Or.inl ⟨Int.natCast_nonneg index, sessions[index], ?_, of_decide_eq_true carries⟩
    rw [sessionAt_natCast, List.getElem?_eq_getElem inside]
  | none =>
    refine Or.inr ⟨by simp, fun listed => ?_⟩
    obtain ⟨session, member, same⟩ := List.mem_map.mp listed
    have other := List.findIdx?_eq_none_iff.mp search session member
    exact absurd same (of_decide_eq_false other)

/-- From an index that is not negative, the selection is aimed at any list. -/
theorem reconcile_aimed (previous : MobileSelection) (positive : 0 ≤ previous.index)
    (sessions : List MobileSession) : ∃ resolved,
      reconcileMobileSelection previous sessions = some resolved ∧
        Aimed sessions previous resolved ∧ 0 ≤ resolved.index := by
  rw [reconcileMobileSelection]
  by_cases empty : sessions.length = 0
  · rw [if_pos empty]
    have none := List.length_eq_zero_iff.mp empty
    refine ⟨_, rfl, ⟨fun nonempty => absurd none nonempty, fun _ => rfl, fun listed => ?_⟩, le_rfl⟩
    rw [none] at listed
    exact absurd listed List.not_mem_nil
  · rw [if_neg empty]
    have nonempty : sessions ≠ [] := mt List.length_eq_zero_iff.mpr empty
    obtain ⟨listed, session, here, carries⟩ | ⟨missing, gone⟩ :=
      indexOfKey_cases sessions previous.key
    · dsimp only
      rw [if_pos listed, here]
      exact ⟨_, rfl, ⟨fun _ => ⟨session, here, rfl⟩, fun nothing => absurd nothing nonempty,
        fun _ => carries⟩, listed⟩
    · dsimp only
      rw [if_neg missing]
      -- The key is gone: the entry that took its place, or the last one.
      obtain ⟨index, spelled, inside⟩ : ∃ index : Nat,
          min previous.index (sessions.length - 1) = index ∧ index < sessions.length := by
        refine ⟨(min previous.index (sessions.length - 1)).toNat, ?_, ?_⟩ <;> omega
      rw [spelled, sessionAt_natCast, List.getElem?_eq_getElem inside]
      refine ⟨_, rfl, ⟨fun _ => ⟨sessions[index], ?_, rfl⟩, fun nothing => absurd nothing nonempty,
        fun listed => absurd listed gone⟩, Int.natCast_nonneg index⟩
      rw [sessionAt_natCast, List.getElem?_eq_getElem inside]

/-- No step throws on an index that is not negative, and none makes it negative. -/
theorem MobileView.step_positive (view : MobileView) (positive : 0 ≤ view.selection.index)
    (action : MobileAction) :
    ∃ next, view.step action = some next ∧ 0 ≤ next.selection.index := by
  obtain ⟨resolved, aims, -, inside⟩ := reconcile_aimed view.selection positive view.sessions
  cases action with
  | render layout servers sessionsByServer => exact ⟨_, rfl, positive⟩
  | effect =>
    rw [MobileView.step, MobileView.effect, aims]
    by_cases listed : 0 ≤ if view.pendingSelectionKey.isSome then
        indexOfKey view.sessions view.pendingSelectionKey else -1
    · exact ⟨_, if_pos listed, listed⟩
    · exact ⟨_, if_neg listed, inside⟩
  | created server started =>
    cases started with
    | nil => exact ⟨_, rfl, positive⟩
    | cons first rest => exact ⟨_, rfl, positive⟩
  | moveSelection offset =>
    rw [MobileView.step, MobileView.moveSelection, aims]
    exact ⟨_, rfl, le_max_left _ _⟩

theorem MobileView.run_positive {actions : List MobileAction} {view : MobileView}
    (run : Run MobileView.step anything MobileView.initial actions view) :
    0 ≤ view.selection.index := by
  refine run.invariant (0 ≤ ·.selection.index) le_rfl fun before action next positive _ taken => ?_
  obtain ⟨other, same, kept⟩ := before.step_positive positive action
  exact Option.some.inj (same.symm.trans taken) ▸ kept

/-- The list has each running session of each server once, those with tiles first, and in every
run of lists, sessions started and moves the selection can be aimed at any list, and no step
throws. -/
theorem mobile_sessions_selected (layout : Layout) (servers : List SessionLists.Server)
    (sessionsByServer : SessionsByServer)
    (distinct : DistinctIds servers sessionsByServer) :
    MobileOrder layout servers sessionsByServer
        (orderMobileSessions layout servers sessionsByServer) ∧
      ∀ actions view, Run MobileView.step anything MobileView.initial actions view →
        (∀ sessions, ∃ resolved,
          reconcileMobileSelection view.selection sessions = some resolved ∧
            Aimed sessions view.selection resolved) ∧
          ∀ action, ∃ next, view.step action = some next := by
  refine ⟨distinct.mobileOrder layout, fun actions view run => ?_⟩
  have positive := MobileView.run_positive run
  constructor
  · intro sessions
    obtain ⟨resolved, aims, aimed, -⟩ := reconcile_aimed view.selection positive sessions
    exact ⟨resolved, aims, aimed⟩
  · intro action
    obtain ⟨next, taken, -⟩ := view.step_positive positive action
    exact ⟨next, taken⟩

/-- A daemon beside the local one. -/
def remoteServer : SessionLists.Server := ⟨"remote", "https://box:8686", "box", none⟩

/-- Tiles of two servers among those of an unknown one, a dead session, a missing one, one that is
shown twice, and an empty cell. -/
def mixedLayout : Layout :=
  { emptyLayout with
    tiles := [some ⟨"remote", 9⟩, some ⟨"removed", 7⟩, some (localTile 2), some (localTile 3),
      some ⟨"remote", 404⟩, some (localTile 2), none] }

/-- The sessions of two servers, one of them dead. -/
def mixedSessions : SessionsByServer := fun id =>
  if id = "local" then some [⟨1, "running"⟩, ⟨2, "running"⟩, ⟨3, "dead"⟩]
  else if id = "remote" then some [⟨8, "running"⟩, ⟨9, "running"⟩]
  else none

theorem mixedSessions_distinct : DistinctIds [localServer, remoteServer] mixedSessions :=
  ⟨by decide, by simp [localServer, remoteServer, sessionsOf, mixedSessions]⟩

example : (orderMobileSessions mixedLayout [localServer, remoteServer] mixedSessions).map
    MobileSession.key = ["remote:9", "local:2", "local:1", "remote:8"] := by
  decide

/-- The list is rendered, and the selection moves on by two, to a session of the first server. -/
def movedByTwo : List MobileAction :=
  [.render mixedLayout [localServer, remoteServer] mixedSessions, .effect, .moveSelection 2]

theorem mobile_sessions_selected_mixed :
    MobileOrder mixedLayout [localServer, remoteServer] mixedSessions
        (orderMobileSessions mixedLayout [localServer, remoteServer] mixedSessions) ∧
      ∃ view, Run MobileView.step anything MobileView.initial movedByTwo view ∧
        view.selection = ⟨some "local:1", 2⟩ ∧
        ∃ resolved, reconcileMobileSelection view.selection
            (orderMobileSessions mixedLayout [remoteServer] mixedSessions) = some resolved ∧
          Aimed (orderMobileSessions mixedLayout [remoteServer] mixedSessions) view.selection
            resolved := by
  obtain ⟨order, runs⟩ := mobile_sessions_selected mixedLayout [localServer, remoteServer]
    mixedSessions mixedSessions_distinct
  obtain ⟨view, computed, moved⟩ := exists_of_exec MobileView.step MobileView.initial movedByTwo
    (fun view => view.selection = ⟨some "local:1", 2⟩) (by decide)
  have run := Run.of_exec_anything computed
  exact ⟨order, view, run, of_decide_eq_true moved, (runs movedByTwo view run).1 _⟩

end Multimux
