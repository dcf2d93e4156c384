/-
This file models how a terminal tile keeps its connection. Each run of the
tile's effect opens a socket, asks the sessions API why it closed and opens the
next one after a delay, until the session is over or the effect is cleaned up.
All tiles of a page share one lookup per server and token while it is in
flight. Every callback runs by itself and to its end, in any order; what a run
of the effect that is over still hears of changes nothing that is shown.
-/

import Multimux.Connections

namespace Multimux

/-! ### Why a socket closed -/

/-- What a tile shows of its connection. -/
inductive ConnState
  | connecting
  | opened
  | offline
  | exited
  | missing
  | auth
  deriving DecidableEq

/-- The loop has stopped for good. -/
def ConnState.final : ConnState → Bool
  | .exited | .missing | .auth => true
  | _ => false

/-- The sessions of a server by id and status, or why there are none. -/
inductive SessionsLookup
  | auth
  | retry
  | ok (sessions : List (Nat × String))

/-- What `lookupSessions` makes of a response: its status and its body, which may not parse.
Nothing stands for a request that failed. -/
def lookupResult : Option (Nat × Option (List (Nat × String))) → SessionsLookup
  | none => .retry
  | some (status, body) =>
    if status = 401 ∨ status = 403 then .auth
    else if ¬ (200 ≤ status ∧ status < 300) then .retry
    else
      match body with
      | some sessions => .ok sessions
      | none => .retry

/-- What a closed socket is taken for. -/
inductive CloseKind
  | retry
  | exited
  | missing
  | auth
  deriving DecidableEq

/-- The end of `classifyClose`. -/
def classifyClose (lookup : SessionsLookup) (sessionId : Nat) : CloseKind :=
  match lookup with
  | .auth => .auth
  | .retry => .retry
  | .ok sessions =>
    match sessions.find? (·.1 = sessionId) with
    | none => .missing
    | some session => if session.2 = "running" then .retry else .exited

/-! ### One run of the effect -/

/-- A run of the effect with the variables of its closure. `sockets` and `timers` are those it
made, and `awaiting` the lookups its calls of `classifyClose` wait for. A socket is owned while
`onmessage` and `onclose` are attached; `onopen` always is. -/
structure TerminalEffect where
  ws : Option Nat
  closed : Bool
  backoff : Nat
  reconnectTimeoutId : Option Nat
  sockets : List Socket
  timers : List Nat
  nextTimer : Nat
  awaiting : List Nat

/-- What a callback leads to: the state it sets, and whether it asks why the socket closed. -/
structure Reaction where
  effect : TerminalEffect
  shows : Option ConnState
  asks : Bool

/-- What the browser calls a run of the effect for. A text frame carries the type that
`parseServerText` reads from it; a lookup comes back with what it tells of the session. -/
inductive TileEvent
  | opens (socket : Nat)
  | binary (socket : Nat)
  | text (socket : Nat) (type : Option String)
  | closing (socket : Nat)
  | closes (socket : Nat)
  | timeout (id : Nat)
  | classified (lookup : Nat) (kind : CloseKind)

namespace TerminalEffect

/-- The run with another state of one of its sockets. -/
def setSocket (effect : TerminalEffect) (index : Nat) (change : Socket → Socket) :
    TerminalEffect :=
  { effect with sockets := effect.sockets.modify index change }

/-- `ws?.close()`. -/
def closeCurrent (effect : TerminalEffect) : TerminalEffect :=
  match effect.ws with
  | some index => effect.setSocket index Connection.closeSocket
  | none => effect

/-- `connect`: a new socket, unless the run is over. -/
def connect (effect : TerminalEffect) : Reaction :=
  if effect.closed then ⟨effect, none, false⟩
  else ⟨{ effect with
    ws := some effect.sockets.length
    sockets := effect.sockets ++ [⟨.connecting, true, false⟩] }, some .connecting, false⟩

/-- The socket opened, and the delay starts anew. -/
def onopen (effect : TerminalEffect) : Reaction :=
  ⟨{ effect with backoff := 500 }, some .opened, false⟩

/-- A text frame: `exit` ends the run. -/
def onmessage (effect : TerminalEffect) (type : Option String) : Reaction :=
  if effect.closed = false ∧ type = some "exit" then
    ⟨{ effect with closed := true }.closeCurrent, some .exited, false⟩
  else ⟨effect, none, false⟩

/-- `onclose`, up to where it waits for `classifyClose`. -/
def onclose (effect : TerminalEffect) : Reaction :=
  if effect.closed then ⟨effect, none, false⟩ else ⟨effect, some .offline, true⟩

/-- `setTimeout(connect, backoff)`. -/
def schedule (effect : TerminalEffect) : TerminalEffect :=
  { effect with
    reconnectTimeoutId := some effect.nextTimer
    timers := effect.timers ++ [effect.nextTimer]
    nextTimer := effect.nextTimer + 1
    backoff := min (effect.backoff * 2) 10000 }

/-- The rest of `onclose`. -/
def classified (effect : TerminalEffect) (kind : CloseKind) : Reaction :=
  if effect.closed then ⟨effect, none, false⟩
  else
    match kind with
    | .retry => ⟨effect.schedule, none, false⟩
    | .exited => ⟨{ effect with closed := true }, some .exited, false⟩
    | .missing => ⟨{ effect with closed := true }, some .missing, false⟩
    | .auth => ⟨{ effect with closed := true }, some .auth, false⟩

/-- `if (reconnectTimeoutId) clearTimeout(reconnectTimeoutId)`. -/
def clearTimer (effect : TerminalEffect) : TerminalEffect :=
  match effect.reconnectTimeoutId with
  | some id => { effect with timers := effect.timers.filter (· ≠ id) }
  | none => effect

/-- Detach `onmessage` and `onclose` and close. -/
def disownCurrent (effect : TerminalEffect) : TerminalEffect :=
  match effect.ws with
  | some index => effect.setSocket index Connection.disown
  | none => effect

/-- The cleanup of the effect. -/
def cleanup (effect : TerminalEffect) : TerminalEffect :=
  { effect with closed := true }.clearTimer.disownCurrent

/-- Something happens to a socket in a state that admits it. -/
def deliver (effect : TerminalEffect) (index : Nat) (admits : ReadyState → Bool)
    (change : Socket → Socket) (heard : Socket → Bool) (handler : TerminalEffect → Reaction) :
    Option Reaction :=
  match effect.sockets[index]? with
  | some socket =>
    if admits socket.readyState then
      let after := effect.setSocket index change
      some (if heard socket then handler after else ⟨after, none, false⟩)
    else none
  | none => none

/-- One callback, to its end or to where it waits. -/
def react (effect : TerminalEffect) : TileEvent → Option Reaction
  | .opens index =>
    effect.deliver index (· = .connecting)
      (fun socket => { socket with readyState := .opened, opened := true }) (fun _ => true) onopen
  | .binary index =>
    effect.deliver index (· = .opened) id Socket.owned fun after => ⟨after, none, false⟩
  | .text index type =>
    effect.deliver index (· = .opened) id Socket.owned (·.onmessage type)
  | .closing index =>
    effect.deliver index (fun state => state = .connecting || state = .opened)
      (fun socket => { socket with readyState := .closing }) (fun _ => false) onclose
  | .closes index =>
    effect.deliver index (· ≠ .closed) (fun socket => { socket with readyState := .closed })
      Socket.owned onclose
  | .timeout id =>
    if id ∈ effect.timers then
      some { effect with timers := effect.timers.filter (· ≠ id) }.connect
    else none
  | .classified lookup kind =>
    if lookup ∈ effect.awaiting then
      some ({ effect with awaiting := effect.awaiting.erase lookup }.classified kind)
    else none

end TerminalEffect

/-- The effect as it starts. -/
def startEffect : TerminalEffect :=
  (TerminalEffect.connect ⟨none, false, 500, none, [], [], 1, []⟩).effect

/-! ### The tiles of a page -/

/-- A tile: the key of its server and its session, what it shows, all runs of its effect, and
whether the last of them is still to be cleaned up. -/
structure TerminalTile where
  key : String
  sessionId : Nat
  state : ConnState
  effects : List TerminalEffect
  running : Bool

/-- A request of `/api/sessions`, with its answer once it is there. -/
structure SessionsRequest where
  key : String
  answer : Option SessionsLookup

/-- The tiles, the map `sessionsLookups` and all requests ever made through it. -/
structure TilePage where
  tiles : List TerminalTile
  sessionsLookups : String → Option Nat
  lookups : List SessionsRequest

/-- A page without tiles. -/
def blankTiles : TilePage := ⟨[], fun _ => none, []⟩

/-- What happens on the page. -/
inductive TileAction
  | mount (key : String) (sessionId : Nat)
  | setServer (tile : Nat) (key : String)
  | rerun (tile : Nat)
  | unmount (tile : Nat)
  | event (tile effect : Nat) (event : TileEvent)
  | answer (lookup : Nat) (res : Option (Nat × Option (List (Nat × String))))

namespace TilePage

/-- The lookup that a caller is given: the one in flight for its server, or a new one. -/
def lookupSessions (page : TilePage) (key : String) : TilePage × Nat :=
  match page.sessionsLookups key with
  | some lookup => (page, lookup)
  | none => ({ page with
      lookups := page.lookups ++ [⟨key, none⟩]
      sessionsLookups := Function.update page.sessionsLookups key (some page.lookups.length) },
    page.lookups.length)

/-- The callback is one that this page can make: a lookup is reported once it is answered, and as
what it says of the session. -/
def admits (page : TilePage) (tile : TerminalTile) : TileEvent → Bool
  | .classified lookup kind =>
    ((page.lookups[lookup]?).bind SessionsRequest.answer).any fun answer =>
      classifyClose answer tile.sessionId = kind
  | _ => true

/-- The page with another state of a tile. -/
def setTile (page : TilePage) (index : Nat) (tile : TerminalTile) : TilePage :=
  { page with tiles := page.tiles.set index tile }

/-- A callback of one run of a tile's effect. -/
def event (page : TilePage) (index place : Nat) (event : TileEvent) : Option TilePage :=
  match page.tiles[index]? with
  | none => none
  | some tile =>
    match tile.effects[place]? with
    | none => none
    | some effect =>
      if page.admits tile event then
        (effect.react event).map fun reaction =>
          let state := reaction.shows.getD tile.state
          if reaction.asks then
            let (page, lookup) := page.lookupSessions tile.key
            page.setTile index { tile with
              state
              effects := tile.effects.set place { reaction.effect with
                awaiting := reaction.effect.awaiting ++ [lookup] } }
          else page.setTile index { tile with
            state, effects := tile.effects.set place reaction.effect }
      else none

/-- Clean up the current run of the effect. -/
def cleanup (tile : TerminalTile) : TerminalTile :=
  { tile with
    effects := tile.effects.modify (tile.effects.length - 1) TerminalEffect.cleanup
    running := false }

/-- Run the effect. -/
def start (tile : TerminalTile) : TerminalTile :=
  { tile with state := .connecting, effects := tile.effects ++ [startEffect], running := true }

/-- One action on the page. -/
def step (page : TilePage) : TileAction → Option TilePage
  | .mount key sessionId => some { page with
      tiles := page.tiles ++ [start ⟨key, sessionId, .connecting, [], false⟩] }
  | .setServer index key =>
    match page.tiles[index]? with
    | some tile => some (page.setTile index { tile with key })
    | none => none
  | .rerun index =>
    match page.tiles[index]? with
    | some tile => if tile.running then some (page.setTile index (start (cleanup tile))) else none
    | none => none
  | .unmount index =>
    match page.tiles[index]? with
    | some tile => if tile.running then some (page.setTile index (cleanup tile)) else none
    | none => none
  | .event index place event => page.event index place event
  | .answer lookup res =>
    match page.lookups[lookup]? with
    | some request =>
      if request.answer.isNone then
        some { page with
          lookups := page.lookups.set lookup { request with answer := some (lookupResult res) }
          sessionsLookups := Function.update page.sessionsLookups request.key none }
      else none
    | none => none

end TilePage

end Multimux
