/-
This file models how the grid page asks the daemons for their sessions. A
refresh that is asked for while a request of that server is out is folded into
one follow-up, which leaves when the request is over. A request is issued,
answered and over at three different moments; the calls, the answers and the
changes of the server list come in any order. The numbers of the requests and
the lists of what was issued and answered are history that no step reads.

The entry of a server is there exactly while a request of it is out, so its
requests are out one after another. Whoever calls while one is out leaves a
mark in the entry, and the end of that request finds it.
-/

import Multimux.Runs
import Mathlib.Data.Finset.Insert
import Mathlib.Data.List.Nodup
import Mathlib.Logic.Function.Basic

namespace Multimux

/-! ### The page -/

/-- A daemon in the list of the page. -/
structure SessionLists.Server where
  id : String
  origin : String
  name : String
  token : Option String
  deriving DecidableEq

/-- An entry of `sessionFetches`. -/
structure InFlight where
  queued : Bool
  settle : Bool

/-- A request with the arguments of its call, as a history variable its number, and its answer
once it is there: nothing where the request failed. -/
structure SessionGet (Sessions : Type*) where
  server : SessionLists.Server
  settleInitial : Bool
  serial : Nat
  answer : Option (Option Sessions)

/-- The request with its answer. -/
def SessionGet.answered {Sessions : Type*} (get : SessionGet Sessions)
    (result : Option Sessions) : SessionGet Sessions :=
  { get with answer := some result }

/-- The page. `servers` is `serversRef`; `gets` are the requests that are not over yet, and
`requests` and `answered` are history: what was issued, and what was answered, in order. -/
structure SessionLists (Sessions : Type*) where
  servers : List SessionLists.Server
  sessionFetches : String → Option InFlight
  gets : List (SessionGet Sessions)
  sessionsByServer : String → Option Sessions
  loadedSessionServers : Finset String
  settledSessionServers : Finset String
  requests : List SessionLists.Server
  answered : List (SessionGet Sessions)

/-- A page that has fetched nothing. -/
def blankLists (Sessions : Type*) (servers : List SessionLists.Server) : SessionLists Sessions :=
  ⟨servers, fun _ => none, [], fun _ => none, ∅, ∅, [], []⟩

namespace SessionLists

variable {Sessions : Type*} {lists next : SessionLists Sessions}

/-- `fetchSessions`: a request, unless one for the server is out, which is then to be repeated. -/
def fetchSessions (lists : SessionLists Sessions) (server : Server) (settleInitial : Bool) :
    SessionLists Sessions :=
  match lists.sessionFetches server.id with
  | some inFlight => { lists with
      sessionFetches := Function.update lists.sessionFetches server.id
        (some ⟨true, inFlight.settle || settleInitial⟩) }
  | none => { lists with
      sessionFetches := Function.update lists.sessionFetches server.id (some ⟨false, false⟩)
      gets := lists.gets ++ [⟨server, settleInitial, lists.requests.length, none⟩]
      requests := lists.requests ++ [server] }

/-- What follows a response: its list is adopted, and a failure leaves the last known one. -/
def adopt (lists : SessionLists Sessions) (server : Server) :
    Option Sessions → SessionLists Sessions
  | some sessions => { lists with
      sessionsByServer := Function.update lists.sessionsByServer server.id (some sessions)
      loadedSessionServers := insert server.id lists.loadedSessionServers }
  | none => lists

/-- The first request of a server is over, however it ended. -/
def settle (lists : SessionLists Sessions) (get : SessionGet Sessions) : SessionLists Sessions :=
  { lists with
    settledSessionServers :=
      if get.settleInitial then insert get.server.id lists.settledSessionServers
      else lists.settledSessionServers }

/-- `delete sessionFetches.current[id]`. -/
def clear (lists : SessionLists Sessions) (id : String) : SessionLists Sessions :=
  { lists with sessionFetches := Function.update lists.sessionFetches id none }

/-- The end of a request: the follow-up goes to the server as it is then, if it is still
listed. Without an entry it would throw before that. -/
def finish (lists : SessionLists Sessions) (get : SessionGet Sessions) : SessionLists Sessions :=
  let lists := lists.settle get
  match lists.sessionFetches get.server.id with
  | none => lists
  | some inFlight =>
    let lists := lists.clear get.server.id
    match lists.servers.find? (·.id = get.server.id) with
    | some latest =>
      if inFlight.queued then lists.fetchSessions latest inFlight.settle else lists
    | none => lists

/-- Every server of the list is asked, or only the one that is named. -/
def refreshSessions (lists : SessionLists Sessions) (servers : List Server)
    (settleInitial : Bool) (only : Option Server) : SessionLists Sessions :=
  (match only with
    | some server => [server]
    | none => servers).foldl (fun lists server => lists.fetchSessions server settleInitial) lists

/-- What happens on the page. -/
inductive Action (Sessions : Type*)
  | fetchSessions (server : Server) (settleInitial : Bool)
  | setServers (servers : List Server)
  | answer (index : Nat) (result : Option Sessions)
  | finish (index : Nat)

/-- One action on the lists. -/
def step (lists : SessionLists Sessions) : Action Sessions → Option (SessionLists Sessions)
  | .fetchSessions server settleInitial => some (lists.fetchSessions server settleInitial)
  | .setServers servers => some { lists with servers }
  | .answer index result =>
    match lists.gets[index]? with
    | some get =>
      if get.answer.isNone then
        some ({ lists with
          gets := lists.gets.set index (get.answered result)
          answered := lists.answered ++ [get.answered result] }.adopt get.server result)
      else none
    | none => none
  | .finish index =>
    match lists.gets[index]? with
    | some get =>
      if get.answer.isSome then some ({ lists with gets := lists.gets.eraseIdx index }.finish get)
      else none
    | none => none

/-- A refresh is a run of calls. -/
theorem refreshSessions_run (lists : SessionLists Sessions) (servers : List Server)
    (settleInitial : Bool) (only : Option Server) :
    Run step anything lists
      ((match only with
        | some server => [server]
        | none => servers).map fun server => .fetchSessions server settleInitial)
      (lists.refreshSessions servers settleInitial only) := by
  refine Run.of_exec_anything ?_
  unfold refreshSessions
  generalize (match only with
    | some server => [server]
    | none => servers) = targets
  induction targets generalizing lists with
  | nil => rfl
  | cons server rest inductionHypothesis => exact inductionHypothesis _

/-! ### One request a server -/

/-- The entries tell which servers have a request out, which is their newest one; what was
answered was issued before, and the last list that arrived is shown. -/
structure Sound (lists : SessionLists Sessions) : Prop where
  single : (lists.gets.map (·.server.id)).Nodup
  entered : ∀ id, lists.sessionFetches id ≠ none ↔ id ∈ lists.gets.map (·.server.id)
  issued : ∀ get ∈ lists.gets, lists.requests[get.serial]? = some get.server
  newest : ∀ get ∈ lists.gets, ∀ serial server, lists.requests[serial]? = some server →
    server.id = get.server.id → serial ≤ get.serial
  known : ∀ get ∈ lists.answered, lists.requests[get.serial]? = some get.server
  pending : ∀ get ∈ lists.gets, get.answer = none →
    ∀ old ∈ lists.answered, old.serial ≠ get.serial
  ordered : lists.answered.Pairwise fun earlier later =>
    earlier.server.id = later.server.id → earlier.serial < later.serial
  adopts : ∀ get ∈ lists.answered,
    (∀ other ∈ lists.answered, other.server.id = get.server.id → other.serial ≤ get.serial) →
    ∀ sessions, get.answer = some (some sessions) →
      lists.sessionsByServer get.server.id = some sessions

theorem blankLists_sound (servers : List Server) : (blankLists Sessions servers).Sound := by
  refine ⟨?_, ?_, ?_, ?_, ?_, ?_, ?_, ?_⟩ <;> simp [blankLists]

theorem Sound.fetchSessions (sound : lists.Sound) (server : Server) (settleInitial : Bool) :
    (lists.fetchSessions server settleInitial).Sound := by
  unfold SessionLists.fetchSessions
  split
  · rename_i inFlight found
    refine ⟨sound.single, ?_, sound.issued, sound.newest, sound.known, sound.pending,
      sound.ordered, sound.adopts⟩
    intro id
    by_cases same : id = server.id
    · subst same
      have member := (sound.entered server.id).mp (by simp [found])
      exact iff_of_true (by simp) member
    · simp only [Function.update_of_ne same]
      exact sound.entered id
  · rename_i absent
    have out : server.id ∉ lists.gets.map (·.server.id) := fun member =>
      (sound.entered server.id).mpr member absent
    have other : ∀ get ∈ lists.gets, get.server.id ≠ server.id := fun get member same =>
      out (List.mem_map.mpr ⟨get, member, same⟩)
    have inside : ∀ get ∈ lists.gets, get.serial < lists.requests.length := fun get member =>
      (List.getElem?_eq_some_iff.mp (sound.issued get member)).1
    have before : ∀ get ∈ lists.answered, get.serial < lists.requests.length := fun get member =>
      (List.getElem?_eq_some_iff.mp (sound.known get member)).1
    refine ⟨?_, ?_, ?_, ?_, ?_, ?_, sound.ordered, sound.adopts⟩
    · rw [List.map_append, List.map_singleton]
      exact List.nodup_append.mpr ⟨sound.single, List.nodup_singleton _, by
        simpa using fun get member => other get member⟩
    · intro id
      simp only [List.map_append, List.map_singleton, List.mem_append, List.mem_singleton]
      by_cases same : id = server.id
      · subst same
        simp
      · simp only [Function.update_of_ne same, same, or_false]
        exact sound.entered id
    · intro get member
      rcases List.mem_append.mp member with older | new
      · exact getElem?_concat_left (sound.issued get older)
      · rw [List.mem_singleton] at new
        subst new
        exact List.getElem?_concat_length
    · intro get member serial asked there same
      rcases getElem?_concat_cases there with earlier | ⟨rfl, rfl⟩
      · rcases List.mem_append.mp member with older | new
        · exact sound.newest get older serial asked earlier same
        · rw [List.mem_singleton] at new
          subst new
          exact (List.getElem?_eq_some_iff.mp earlier).1.le
      · rcases List.mem_append.mp member with older | new
        · exact (other get older same.symm).elim
        · rw [List.mem_singleton] at new
          subst new
          exact le_rfl
    · intro get member
      exact getElem?_concat_left (sound.known get member)
    · intro get member open_ old answered
      rcases List.mem_append.mp member with older | new
      · exact sound.pending get older open_ old answered
      · rw [List.mem_singleton] at new
        subst new
        exact (before old answered).ne

/-- The requests of a server are at one place. -/
theorem Sound.place_eq (sound : lists.Sound) {index place : Nat} {get other : SessionGet Sessions}
    (found : lists.gets[index]? = some get) (there : lists.gets[place]? = some other)
    (same : get.server.id = other.server.id) : index = place := by
  refine (List.getElem?_inj ?_ sound.single).mp ?_
  · rw [List.length_map]
    exact (List.getElem?_eq_some_iff.mp found).1
  · rw [List.getElem?_map, List.getElem?_map, found, there, Option.map_some, Option.map_some, same]

theorem map_server_set {gets : List (SessionGet Sessions)} {index : Nat}
    {get : SessionGet Sessions} (found : gets[index]? = some get) (result : Option Sessions) :
    (gets.set index (get.answered result)).map (·.server.id) = gets.map (·.server.id) := by
  refine List.ext_getElem? fun place => ?_
  rw [List.getElem?_map, List.getElem?_map]
  by_cases same : index = place
  · subst same
    rw [List.getElem?_set_self (List.getElem?_eq_some_iff.mp found).1, found]
    rfl
  · rw [List.getElem?_set_ne same]

/-- A request is answered: its list is the newest of its server that arrived. -/
theorem Sound.answer (sound : lists.Sound) {index : Nat} {get : SessionGet Sessions}
    (found : lists.gets[index]? = some get) (unanswered : get.answer = none)
    {result : Option Sessions} {shown : String → Option Sessions} (loaded : Finset String)
    (here : ∀ sessions, result = some sessions → shown get.server.id = some sessions)
    (elsewhere : ∀ id, id ≠ get.server.id → shown id = lists.sessionsByServer id) :
    Sound { lists with
      gets := lists.gets.set index (get.answered result)
      sessionsByServer := shown
      loadedSessionServers := loaded
      answered := lists.answered ++ [get.answered result] } := by
  have member := List.mem_of_getElem? found
  have sameIds := map_server_set found result
  have after : ∀ other ∈ lists.gets.set index (get.answered result),
      other ∈ lists.gets ∨ other = get.answered result := fun other there =>
    List.mem_or_eq_of_mem_set there
  have beyond : ∀ old ∈ lists.answered, old.server.id = get.server.id →
      old.serial < get.serial := by
    intro old there same
    refine lt_of_le_of_ne ?_ (sound.pending get member unanswered old there)
    exact sound.newest get member old.serial old.server (sound.known old there) same
  refine ⟨sameIds.symm ▸ sound.single, ?_, ?_, ?_, ?_, ?_, ?_, ?_⟩
  · intro id
    simp only [sameIds]
    exact sound.entered id
  · intro other there
    rcases after other there with older | rfl
    · exact sound.issued other older
    · exact sound.issued get member
  · intro other there
    rcases after other there with older | rfl
    · exact sound.newest other older
    · exact sound.newest get member
  · intro other there
    rcases List.mem_append.mp there with older | new
    · exact sound.known other older
    · rw [List.mem_singleton] at new
      subst new
      exact sound.issued get member
  · intro other there unsent old answered
    obtain ⟨place, at_place⟩ := List.getElem?_of_mem there
    rcases getElem?_set_cases at_place with ⟨-, rfl⟩ | ⟨different, older⟩
    · cases unsent
    · rcases List.mem_append.mp answered with before | new
      · exact sound.pending other (List.mem_of_getElem? older) unsent old before
      · rw [List.mem_singleton] at new
        subst new
        intro same
        have asked := sound.issued other (List.mem_of_getElem? older)
        rw [← same] at asked
        have server := Option.some.inj (asked.symm.trans (sound.issued get member))
        exact different (sound.place_eq older found (congrArg Server.id server))
  · refine List.pairwise_append.mpr ⟨sound.ordered, List.pairwise_singleton .., ?_⟩
    intro old there new last
    rw [List.mem_singleton] at last
    subst last
    exact beyond old there
  · intro old there latest sessions adopted
    rcases List.mem_append.mp there with older | new
    · have different : old.server.id ≠ get.server.id := by
        intro same
        have least := latest (get.answered result)
          (List.mem_append_right _ (List.mem_singleton_self _)) same.symm
        exact absurd (beyond old older same) (not_lt.mpr least)
      refine (elsewhere _ different).trans (sound.adopts old older ?_ sessions adopted)
      exact fun other place => latest other (List.mem_append_left _ place)
    · rw [List.mem_singleton] at new
      subst new
      exact here sessions (Option.some.inj adopted)

/-- The requests of the other servers are still out after the end of one. -/
theorem Sound.mem_eraseIdx_iff (sound : lists.Sound) {index : Nat} {get other : SessionGet Sessions}
    (found : lists.gets[index]? = some get) :
    other ∈ lists.gets.eraseIdx index ↔
      other ∈ lists.gets ∧ other.server.id ≠ get.server.id := by
  rw [List.mem_eraseIdx_iff_getElem?]
  constructor
  · rintro ⟨place, different, there⟩
    exact ⟨List.mem_of_getElem? there, fun same => different (sound.place_eq there found same)⟩
  · rintro ⟨member, different⟩
    obtain ⟨place, there⟩ := List.getElem?_of_mem member
    refine ⟨place, ?_, there⟩
    rintro rfl
    cases found.symm.trans there
    exact different rfl

/-- The page between the end of a request and its follow-up. -/
def completed (lists : SessionLists Sessions) (index : Nat) (get : SessionGet Sessions) :
    SessionLists Sessions :=
  ({ lists with gets := lists.gets.eraseIdx index }.settle get).clear get.server.id

theorem Sound.completed (sound : lists.Sound) {index : Nat} {get : SessionGet Sessions}
    (found : lists.gets[index]? = some get) : (lists.completed index get).Sound := by
  have still : ∀ other ∈ lists.gets.eraseIdx index,
      other ∈ lists.gets ∧ other.server.id ≠ get.server.id := fun _ =>
    (sound.mem_eraseIdx_iff found).mp
  refine ⟨?_, ?_, ?_, ?_, sound.known, ?_, sound.ordered, sound.adopts⟩
  · exact sound.single.sublist ((List.eraseIdx_sublist ..).map _)
  · intro id
    simp only [List.mem_map]
    by_cases same : id = get.server.id
    · refine iff_of_false (by simp [SessionLists.completed, clear, same]) ?_
      rintro ⟨other, member, rfl⟩
      exact (still other member).2 same
    · refine Iff.trans (by simp [SessionLists.completed, clear, settle, same])
        ((sound.entered id).trans ?_)
      rw [List.mem_map]
      refine exists_congr fun other => ?_
      constructor
      · rintro ⟨member, rfl⟩
        exact ⟨(sound.mem_eraseIdx_iff found).mpr ⟨member, same⟩, rfl⟩
      · rintro ⟨member, rfl⟩
        exact ⟨(still other member).1, rfl⟩
  · exact fun other member => sound.issued other (still other member).1
  · exact fun other member => sound.newest other (still other member).1
  · exact fun other member => sound.pending other (still other member).1

/-- The end of a request: the follow-up leaves for the listed server if somebody asked for
one. -/
theorem Sound.finish_cases (sound : lists.Sound) {index : Nat} {get : SessionGet Sessions}
    (found : lists.gets[index]? = some get) :
    ∃ inFlight, lists.sessionFetches get.server.id = some inFlight ∧
      ((∃ latest ∈ lists.servers, latest.id = get.server.id ∧ inFlight.queued = true ∧
          { lists with gets := lists.gets.eraseIdx index }.finish get =
            (lists.completed index get).fetchSessions latest inFlight.settle) ∨
        (inFlight.queued = false ∨ ∀ server ∈ lists.servers, server.id ≠ get.server.id) ∧
          { lists with gets := lists.gets.eraseIdx index }.finish get =
            lists.completed index get) := by
  have entry := (sound.entered get.server.id).mpr
    (List.mem_map.mpr ⟨get, List.mem_of_getElem? found, rfl⟩)
  obtain ⟨inFlight, entered⟩ := Option.ne_none_iff_exists'.mp entry
  refine ⟨inFlight, entered, ?_⟩
  have unfolded : { lists with gets := lists.gets.eraseIdx index }.finish get =
      match lists.servers.find? (·.id = get.server.id) with
      | some latest =>
        if inFlight.queued then (lists.completed index get).fetchSessions latest inFlight.settle
        else lists.completed index get
      | none => lists.completed index get := by
    simp only [finish, settle, entered]
    rfl
  rw [unfolded]
  split
  · rename_i latest listed
    have named : latest.id = get.server.id := by simpa using List.find?_some listed
    cases queued : inFlight.queued with
    | true => exact .inl ⟨latest, List.mem_of_find?_eq_some listed, named, rfl, if_pos rfl⟩
    | false => exact .inr ⟨.inl rfl, if_neg Bool.false_ne_true⟩
  · rename_i unlisted
    refine .inr ⟨.inr fun server member => ?_, rfl⟩
    simpa using List.find?_eq_none.mp unlisted server member

theorem Sound.finish (sound : lists.Sound) {index : Nat} {get : SessionGet Sessions}
    (found : lists.gets[index]? = some get) :
    ({ lists with gets := lists.gets.eraseIdx index }.finish get).Sound := by
  obtain ⟨inFlight, -, ⟨latest, -, -, -, ended⟩ | ⟨-, ended⟩⟩ := sound.finish_cases found
  · rw [ended]
    exact (sound.completed found).fetchSessions latest inFlight.settle
  · rw [ended]
    exact sound.completed found

/-- A response that arrives, taken apart. -/
theorem answer_cases {index : Nat} {result : Option Sessions}
    (taken : lists.step (.answer index result) = some next) :
    ∃ get, lists.gets[index]? = some get ∧ get.answer = none ∧
      next = { lists with
        gets := lists.gets.set index (get.answered result)
        answered := lists.answered ++ [get.answered result] }.adopt get.server result := by
  simp only [step] at taken
  split at taken
  · rename_i get found
    split at taken
    · rename_i unanswered
      cases taken
      exact ⟨get, found, Option.isNone_iff_eq_none.mp unanswered, rfl⟩
    · cases taken
  · cases taken

/-- The end of a request, taken apart. -/
theorem finish_step {index : Nat} (taken : lists.step (.finish index) = some next) :
    ∃ get, lists.gets[index]? = some get ∧
      next = { lists with gets := lists.gets.eraseIdx index }.finish get := by
  simp only [step] at taken
  split at taken
  · rename_i get found
    split at taken
    · cases taken
      exact ⟨get, found, rfl⟩
    · cases taken
  · cases taken

theorem Sound.step (sound : lists.Sound) {action : Action Sessions}
    (taken : lists.step action = some next) : next.Sound := by
  cases action with
  | fetchSessions server settleInitial =>
    cases taken
    exact sound.fetchSessions server settleInitial
  | setServers servers =>
    cases taken
    exact ⟨sound.single, sound.entered, sound.issued, sound.newest, sound.known, sound.pending,
      sound.ordered, sound.adopts⟩
  | answer index result =>
    obtain ⟨get, found, unanswered, rfl⟩ := answer_cases taken
    cases result with
    | some sessions =>
      refine sound.answer found unanswered _ ?_ fun id different =>
        Function.update_of_ne different ..
      intro _ same
      cases same
      exact Function.update_self ..
    | none => exact sound.answer found unanswered _ (by simp) fun _ _ => rfl
  | finish index =>
    obtain ⟨get, found, rfl⟩ := finish_step taken
    exact sound.finish found

/-! ### What a call waits for -/

/-- A request of the server was issued as number `start` or later. -/
def RequestedSince (lists : SessionLists Sessions) (id : String) (start : Nat) : Prop :=
  ∃ serial server, start ≤ serial ∧ lists.requests[serial]? = some server ∧ server.id = id

/-- The request that is out was issued before number `start` and is to be followed up. -/
def Folded (lists : SessionLists Sessions) (id : String) (start : Nat) : Prop :=
  (∃ inFlight, lists.sessionFetches id = some inFlight ∧ inFlight.queued = true) ∧
    ∃ get ∈ lists.gets, get.server.id = id ∧ get.serial < start

/-- The server is settled, or will be at the end of its request or of the follow-up. -/
def Settling (lists : SessionLists Sessions) (id : String) : Prop :=
  id ∈ lists.settledSessionServers ∨
    (∃ get ∈ lists.gets, get.server.id = id ∧ get.settleInitial = true) ∨
    ∃ inFlight, lists.sessionFetches id = some inFlight ∧ inFlight.queued = true ∧
      inFlight.settle = true

/-- The server is in the list. -/
def Lists (lists : SessionLists Sessions) (id : String) : Prop :=
  ∃ server ∈ lists.servers, server.id = id

instance Lists.decidable (lists : SessionLists Sessions) (id : String) :
    Decidable (lists.Lists id) :=
  inferInstanceAs (Decidable (∃ server ∈ lists.servers, server.id = id))

/-- A call on a server has been served, or will be. -/
structure Awaits (lists : SessionLists Sessions) (id : String) (start : Nat)
    (settleInitial : Bool) : Prop where
  bound : start ≤ lists.requests.length
  requested : lists.RequestedSince id start ∨ lists.Folded id start
  settles : settleInitial = true → lists.Settling id

variable {id : String} {start : Nat} {settleInitial : Bool}

/-- The call itself. -/
theorem Sound.awaits (sound : lists.Sound) (server : Server) (settleInitial : Bool) :
    (lists.fetchSessions server settleInitial).Awaits server.id lists.requests.length
      settleInitial := by
  unfold SessionLists.fetchSessions
  split
  · rename_i inFlight entered
    obtain ⟨get, member, named⟩ := List.mem_map.mp
      ((sound.entered server.id).mp (by simp [entered]))
    have issued := (List.getElem?_eq_some_iff.mp (sound.issued get member)).1
    refine ⟨le_rfl, .inr ⟨⟨_, Function.update_self .., rfl⟩, get, member, named, issued⟩, ?_⟩
    exact fun settles => .inr (.inr ⟨_, Function.update_self .., rfl, by simp [settles]⟩)
  · refine ⟨by simp, .inl ⟨_, server, le_rfl, List.getElem?_concat_length, rfl⟩, ?_⟩
    intro settles
    exact .inr (.inl ⟨_, List.mem_append_right _ (List.mem_singleton_self _), rfl, settles⟩)

/-- Another call, of this server or of another. -/
theorem Awaits.fetchSessions (awaits : lists.Awaits id start settleInitial) (server : Server)
    (again : Bool) : (lists.fetchSessions server again).Awaits id start settleInitial := by
  obtain ⟨bound, requested, settles⟩ := awaits
  unfold SessionLists.fetchSessions
  split
  · rename_i inFlight entered
    refine ⟨bound, requested.imp_right ?_, fun settle => (settles settle).imp_right ?_⟩
    · rintro ⟨⟨mark, found, queued⟩, out⟩
      refine ⟨?_, out⟩
      by_cases same : id = server.id
      · subst same
        exact ⟨_, Function.update_self .., rfl⟩
      · exact ⟨mark, (Function.update_of_ne same ..).trans found, queued⟩
    · refine Or.imp_right ?_
      rintro ⟨mark, found, queued, settle⟩
      by_cases same : id = server.id
      · subst same
        cases entered.symm.trans found
        exact ⟨_, Function.update_self .., rfl, by simp [settle]⟩
      · exact ⟨mark, (Function.update_of_ne same ..).trans found, queued, settle⟩
  · rename_i absent
    have marked : ∀ mark, lists.sessionFetches id = some mark → id ≠ server.id := by
      rintro mark found rfl
      rw [absent] at found
      cases found
    refine ⟨?_, ?_, fun settle => (settles settle).imp_right ?_⟩
    · rw [List.length_append]
      exact bound.trans (Nat.le_add_right _ _)
    · refine requested.imp ?_ ?_
      · rintro ⟨serial, asked, late, there, named⟩
        exact ⟨serial, asked, late, getElem?_concat_left there, named⟩
      · rintro ⟨⟨mark, found, queued⟩, get, member, named, early⟩
        exact ⟨⟨mark, (Function.update_of_ne (marked mark found) ..).trans found, queued⟩,
          get, List.mem_append_left _ member, named, early⟩
    · refine Or.imp ?_ ?_
      · rintro ⟨get, member, named, settle⟩
        exact ⟨get, List.mem_append_left _ member, named, settle⟩
      · rintro ⟨mark, found, queued, settle⟩
        exact ⟨mark, (Function.update_of_ne (marked mark found) ..).trans found, queued, settle⟩

/-- A response changes nothing that a call waits for. -/
theorem Awaits.answer (awaits : lists.Awaits id start settleInitial) {index : Nat}
    {get : SessionGet Sessions} (found : lists.gets[index]? = some get)
    (result : Option Sessions) :
    ({ lists with
      gets := lists.gets.set index (get.answered result)
      answered := lists.answered ++ [get.answered result] }.adopt get.server
        result).Awaits id start settleInitial := by
  have still : ∀ other ∈ lists.gets, other ∈ lists.gets.set index (get.answered result) ∨
      other = get ∧ get.answered result ∈ lists.gets.set index (get.answered result) := by
    intro other member
    obtain ⟨place, there⟩ := List.getElem?_of_mem member
    by_cases same : index = place
    · subst same
      cases found.symm.trans there
      exact .inr ⟨rfl, List.mem_of_getElem?
        (List.getElem?_set_self (List.getElem?_eq_some_iff.mp found).1)⟩
    · exact .inl (List.mem_of_getElem? ((List.getElem?_set_ne same).trans there))
  obtain ⟨bound, requested, settles⟩ := awaits
  have core : ({ lists with
      gets := lists.gets.set index (get.answered result)
      answered := lists.answered ++ [get.answered result] } : SessionLists Sessions).Awaits id
        start settleInitial := by
    refine ⟨bound, requested.imp_right ?_, fun settle => (settles settle).imp_right
      (Or.imp_left ?_)⟩
    · rintro ⟨marked, other, member, named, early⟩
      rcases still other member with there | ⟨rfl, there⟩
      · exact ⟨marked, other, there, named, early⟩
      · exact ⟨marked, _, there, named, early⟩
    · rintro ⟨other, member, named, settle⟩
      rcases still other member with there | ⟨rfl, there⟩
      · exact ⟨other, there, named, settle⟩
      · exact ⟨_, there, named, settle⟩
  cases result with
  | some sessions => exact ⟨core.bound, core.requested, core.settles⟩
  | none => exact core

/-- The end of a request of another server. -/
theorem Awaits.completed (awaits : lists.Awaits id start settleInitial) (sound : lists.Sound)
    {index : Nat} {get : SessionGet Sessions} (found : lists.gets[index]? = some get)
    (other : get.server.id ≠ id) : (lists.completed index get).Awaits id start settleInitial := by
  obtain ⟨bound, requested, settles⟩ := awaits
  have still : ∀ out ∈ lists.gets, out.server.id = id → out ∈ lists.gets.eraseIdx index :=
    fun out member named =>
      (sound.mem_eraseIdx_iff found).mpr ⟨member, fun same => other (same.symm.trans named)⟩
  have mark : (lists.completed index get).sessionFetches id = lists.sessionFetches id :=
    Function.update_of_ne other.symm ..
  refine ⟨bound, requested.imp_right ?_, fun settle => (settles settle).imp ?_ (Or.imp ?_ ?_)⟩
  · rintro ⟨marked, out, member, named, early⟩
    exact ⟨by rwa [mark], out, still out member named, named, early⟩
  · intro settled
    simp only [SessionLists.completed, clear, SessionLists.settle]
    split
    · exact Finset.mem_insert_of_mem settled
    · exact settled
  · rintro ⟨out, member, named, settle⟩
    exact ⟨out, still out member named, named, settle⟩
  · rintro ⟨inFlight, there, marked⟩
    exact ⟨inFlight, mark.trans there, marked⟩

/-- The end of the request of this server, which is listed: the follow-up leaves if somebody
asked for one. -/
theorem Awaits.finish (awaits : lists.Awaits id start settleInitial) (sound : lists.Sound)
    (listed : lists.Lists id) {index : Nat} {get : SessionGet Sessions}
    (found : lists.gets[index]? = some get) :
    ({ lists with gets := lists.gets.eraseIdx index }.finish get).Awaits id start
      settleInitial := by
  obtain ⟨inFlight, entered, outcome⟩ := sound.finish_cases found
  by_cases other : get.server.id ≠ id
  · have kept := awaits.completed sound found other
    rcases outcome with ⟨latest, -, -, -, ended⟩ | ⟨-, ended⟩
    · rw [ended]
      exact kept.fetchSessions latest inFlight.settle
    · rw [ended]
      exact kept
  obtain rfl := not_not.mp other
  obtain ⟨bound, requested, settles⟩ := awaits
  -- What was to settle the server has done so, or leaves its mark to the follow-up.
  have settled : lists.Settling get.server.id →
      get.server.id ∈ (lists.completed index get).settledSessionServers ∨
        inFlight.queued = true ∧ inFlight.settle = true := by
    rintro (already | ⟨other, member, named, settle⟩ | ⟨mark, there, marked⟩)
    · left
      simp only [SessionLists.completed, clear, SessionLists.settle]
      split
      · exact Finset.mem_insert_of_mem already
      · exact already
    · left
      obtain ⟨place, at_place⟩ := List.getElem?_of_mem member
      obtain rfl := sound.place_eq at_place found named
      cases found.symm.trans at_place
      simp [SessionLists.completed, clear, SessionLists.settle, settle]
    · right
      cases entered.symm.trans there
      exact marked
  rcases outcome with ⟨latest, -, named, queued, ended⟩ | ⟨unmarked, ended⟩
  · have cleared : (lists.completed index get).sessionFetches latest.id = none := by
      rw [named]
      exact Function.update_self ..
    rw [ended]
    simp only [SessionLists.fetchSessions, cleared]
    refine ⟨?_, .inl ⟨_, latest, bound, List.getElem?_concat_length, named⟩, fun settle => ?_⟩
    · rw [List.length_append]
      exact bound.trans (Nat.le_add_right _ _)
    · refine (settled (settles settle)).imp_right fun marked => .inl ?_
      exact ⟨_, List.mem_append_right _ (List.mem_singleton_self _), named, marked.2⟩
  · obtain ⟨server, member, here⟩ := listed
    have unqueued : inFlight.queued = false := by
      refine unmarked.resolve_right fun unlisted => ?_
      exact unlisted server member here
    rw [ended]
    refine ⟨bound, .inl ?_, fun settle => .inl ?_⟩
    · refine requested.resolve_right ?_
      rintro ⟨⟨mark, there, queued⟩, -⟩
      cases entered.symm.trans there
      rw [unqueued] at queued
      cases queued
    · refine (settled (settles settle)).resolve_right ?_
      rintro ⟨queued, -⟩
      rw [unqueued] at queued
      cases queued

theorem Awaits.step (awaits : lists.Awaits id start settleInitial) (sound : lists.Sound)
    (listed : lists.Lists id) {action : Action Sessions}
    (taken : lists.step action = some next) : next.Awaits id start settleInitial := by
  cases action with
  | fetchSessions server again =>
    cases taken
    exact awaits.fetchSessions server again
  | setServers servers =>
    cases taken
    exact ⟨awaits.bound, awaits.requested, awaits.settles⟩
  | answer index result =>
    obtain ⟨get, found, -, rfl⟩ := answer_cases taken
    exact awaits.answer found result
  | finish index =>
    obtain ⟨get, found, rfl⟩ := finish_step taken
    exact awaits.finish sound listed found

/-- When no request of the server is out, a call on it was served. -/
theorem Awaits.served (awaits : lists.Awaits id start settleInitial) (sound : lists.Sound)
    (quiet : ∀ get ∈ lists.gets, get.server.id ≠ id) :
    lists.RequestedSince id start ∧
      (settleInitial = true → id ∈ lists.settledSessionServers) := by
  constructor
  · refine awaits.requested.resolve_right ?_
    rintro ⟨-, get, member, named, -⟩
    exact quiet get member named
  · intro settle
    rcases awaits.settles settle with settled | ⟨get, member, named, -⟩ | ⟨mark, there, -⟩
    · exact settled
    · exact (quiet get member named).elim
    · obtain ⟨get, member, named⟩ := List.mem_map.mp
        ((sound.entered id).mp (by simp [there]))
      exact (quiet get member named).elim

end SessionLists

/-- Refreshes coalesce without losing a call: a server has one request out at a time, its
answers arrive in the order of the requests, and a call on a server that stays listed is
followed by a request of it, of which the last one decides what is shown. -/
theorem sessionFetches_coalesce {Sessions : Type*} {servers : List SessionLists.Server}
    {actions : List (SessionLists.Action Sessions)} {lists : SessionLists Sessions}
    (run : Run SessionLists.step anything (blankLists Sessions servers) actions lists) :
    (lists.gets.map (·.server.id)).Nodup ∧
      (lists.answered.Pairwise fun earlier later =>
        earlier.server.id = later.server.id → earlier.serial < later.serial) ∧
      ∀ (server : SessionLists.Server) (settleInitial : Bool)
        (later : List (SessionLists.Action Sessions)) (final : SessionLists Sessions),
        Run SessionLists.step (fun state _ => state.Lists server.id)
          (lists.fetchSessions server settleInitial) later final →
        (final.RequestedSince server.id lists.requests.length ∨
          final.Folded server.id lists.requests.length) ∧
        ((∀ get ∈ final.gets, get.server.id ≠ server.id) →
          final.RequestedSince server.id lists.requests.length ∧
          (∀ get ∈ final.answered, get.server.id = server.id →
            (∀ serial asked, final.requests[serial]? = some asked → asked.id = server.id →
              serial ≤ get.serial) →
            ∀ sessions, get.answer = some (some sessions) →
              lists.requests.length ≤ get.serial ∧
                final.sessionsByServer server.id = some sessions) ∧
          (settleInitial = true → server.id ∈ final.settledSessionServers)) := by
  have sound : lists.Sound := run.invariant SessionLists.Sound
    (SessionLists.blankLists_sound servers) fun _ _ _ before _ taken => before.step taken
  refine ⟨sound.single, sound.ordered, fun server settleInitial later final onward => ?_⟩
  obtain ⟨after, awaits⟩ := onward.invariant
    (fun state => state.Sound ∧
      state.Awaits server.id lists.requests.length settleInitial)
    ⟨sound.fetchSessions server settleInitial, sound.awaits server settleInitial⟩
    fun state action next before listed taken =>
      ⟨before.1.step taken, before.2.step before.1 listed taken⟩
  refine ⟨awaits.requested, fun quiet => ?_⟩
  obtain ⟨requested, settled⟩ := awaits.served after quiet
  refine ⟨requested, fun get answered named last sessions succeeded => ⟨?_, ?_⟩, settled⟩
  · obtain ⟨serial, asked, late, there, same⟩ := requested
    exact late.trans (last serial asked there same)
  · rw [← named]
    refine after.adopts get answered (fun other member same => ?_) sessions succeeded
    exact last other.serial other.server (after.known other member) (same.trans named)

/-- The daemon that the page came from. -/
def localServer : SessionLists.Server := ⟨"local", "http://localhost:8080", "local", none⟩

/-- A refresh of the local daemon is out. -/
def refreshing : SessionLists Nat :=
  (blankLists Nat [localServer]).fetchSessions localServer false

/-- The request that is out fails, and its follow-up succeeds. -/
def failedThenFetched : List (SessionLists.Action Nat) :=
  [.answer 0 none, .finish 0, .answer 0 (some 7), .finish 0]

/-- A call that was folded into the failing request is served by the follow-up. -/
theorem failedThenFetched_settled :
    ∃ final, Run SessionLists.step (fun state _ => state.Lists "local")
        (refreshing.fetchSessions localServer true) failedThenFetched final ∧
      "local" ∈ final.settledSessionServers ∧ final.sessionsByServer "local" = some 7 := by
  obtain ⟨final, computed, passed⟩ := exists_of_exec SessionLists.step
    (refreshing.fetchSessions localServer true) failedThenFetched
    (fun final => final.gets.isEmpty && (final.requests.length == 2 &&
      final.answered.any fun get => get.server.id == "local" && (get.serial == 1 &&
        get.answer == some (some 7)))) (by decide)
  have onward : Run SessionLists.step (fun state _ => state.Lists "local")
      (refreshing.fetchSessions localServer true) failedThenFetched final :=
    Run.of_exec computed (by decide)
  have run : Run SessionLists.step anything (blankLists Nat [localServer])
      [.fetchSessions localServer false] refreshing := Run.nil.snoc trivial rfl
  simp only [Bool.and_eq_true, List.isEmpty_iff, beq_iff_eq, List.any_eq_true] at passed
  obtain ⟨none, two, get, answered, named, second, succeeded⟩ := passed
  obtain ⟨-, shown, settled⟩ := ((sessionFetches_coalesce run).2.2 localServer true
    failedThenFetched final onward).2 (by simp [none])
  refine ⟨final, onward, settled rfl, (shown get answered named ?_ 7 succeeded).2⟩
  intro serial asked there _
  have bound := (List.getElem?_eq_some_iff.mp there).1
  omega

end Multimux
