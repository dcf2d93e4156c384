/-
This file models the hook that listens to a daemon's events. All hooks of a URL
share one connection, which replaces its socket when that closes or falls
silent and stops with its last subscriber. Every callback of the browser runs
by itself and to its end, in any order: a socket opens, carries a frame or
closes, a timer or an interval fires, the tab comes back, a probe is answered.
A socket that is replaced is disowned first, so that what it still has to say
reaches nobody.
-/

import Multimux.Runs
import Mathlib.Logic.Function.Basic

namespace Multimux

/-! ### Connections -/

/-- What the page shows of the events socket of a daemon. -/
inductive EventsStatus
  | opened
  | authExpired
  | forbidden
  | wsBlocked
  | unreachable
  deriving DecidableEq

/-- `readyState`. -/
inductive ReadyState
  | connecting
  | opened
  | closing
  | closed
  deriving DecidableEq

/-- A socket that was created: whether its handlers are still attached, and whether it ever
opened. -/
structure Socket where
  readyState : ReadyState
  owned : Bool
  opened : Bool
  deriving DecidableEq

/-- What a subscriber is called with. -/
inductive EventsCall
  | onStatus (status : EventsStatus)
  | onHello (build : String)
  | onEvent (type : String)
  deriving DecidableEq

/-- A connection with the variables of the closure that `open` makes. Its sockets, timers and
probes are those that were created and are still to be heard of; `called` is the history of the
calls of its subscribers. -/
structure Connection where
  url : String
  subscribers : List Nat
  lastStatus : Option EventsStatus
  lastBuild : Option String
  ws : Option Nat
  closed : Bool
  backoff : Nat
  reconnectTimeoutId : Option Nat
  failsSinceOpen : Nat
  lastFrameAt : Nat
  sockets : List Socket
  timers : List Nat
  nextTimer : Nat
  probes : Nat
  liveChecks : Bool
  listening : Bool
  called : List (Nat × EventsCall)

/-- How long an open socket may be silent, in milliseconds. -/
def staleAfter : Nat := 75000

namespace Connection

/-- Call every subscriber. -/
def each (conn : Connection) (call : EventsCall) : Connection :=
  { conn with called := conn.called ++ conn.subscribers.map fun sub => (sub, call) }

/-- The subscribers are told of the status, and the last one is kept. -/
def setStatus (conn : Connection) (status : EventsStatus) : Connection :=
  { conn with lastStatus := some status }.each (.onStatus status)

/-- What the answer of `/api/auth/me` tells; none stands for a request that failed. -/
def classified : Option Nat → EventsStatus
  | some code =>
    if code = 401 then .authExpired
    else if code = 403 then .forbidden
    else if 200 ≤ code ∧ code < 300 then .wsBlocked
    else .unreachable
  | none => .unreachable

/-- The end of `classify`. -/
def finishClassify (conn : Connection) (status : EventsStatus) : Connection :=
  if conn.closed then conn else conn.setStatus status

/-- Ask for the status, on behalf of the first subscriber; without one the call throws at
once. -/
def classify (conn : Connection) : Connection :=
  if conn.subscribers = [] then conn.finishClassify .unreachable
  else { conn with probes := conn.probes + 1 }

/-- `connect`: a new socket, unless the connection is over. -/
def connect (conn : Connection) (now : Nat) : Connection :=
  if conn.closed then conn
  else { conn with
    lastFrameAt := now
    ws := some conn.sockets.length
    sockets := conn.sockets ++ [⟨.connecting, true, false⟩] }

/-- A socket opened: the delay and the count of failures start anew. -/
def onopen (conn : Connection) (now : Nat) : Connection :=
  { conn with backoff := 1000, failsSinceOpen := 0, lastFrameAt := now }.setStatus .opened

/-- A frame: nothing where it does not parse. -/
structure Frame where
  type : Option String
  build : Option String

/-- A `hello` tells which build the daemon runs. -/
def hello (conn : Connection) (build : Option String) : Connection :=
  { conn with lastBuild := some (build.getD "") }.each (.onHello (build.getD ""))

/-- A frame: it shows that the socket lives, and its type is passed on. -/
def onmessage (conn : Connection) (now : Nat) (frame : Option Frame) : Connection :=
  let conn := { conn with lastFrameAt := now }
  match frame with
  | none => conn
  | some frame =>
    let conn := if frame.type = some "hello" then conn.hello frame.build else conn
    match frame.type with
    | some type => if type = "" then conn else conn.each (.onEvent type)
    | none => conn

/-- `setTimeout(connect, backoff)`. -/
def schedule (conn : Connection) : Connection :=
  { conn with
    reconnectTimeoutId := some conn.nextTimer
    timers := conn.timers ++ [conn.nextTimer]
    nextTimer := conn.nextTimer + 1
    backoff := min (conn.backoff * 2) 15000 }

/-- A socket closed: after two failures in a row a probe goes out, and in any case a timer. -/
def onclose (conn : Connection) : Connection :=
  if conn.closed then conn
  else
    let conn := { conn with failsSinceOpen := conn.failsSinceOpen + 1 }
    let conn := if 2 ≤ conn.failsSinceOpen then conn.classify else conn
    conn.schedule

/-- `clearTimeout(reconnectTimeoutId)`. -/
def clearTimer (conn : Connection) : Connection :=
  match conn.reconnectTimeoutId with
  | some id => { conn with timers := conn.timers.filter (· ≠ id) }
  | none => conn

/-- Change a socket. -/
def setSocket (conn : Connection) (index : Nat) (change : Socket → Socket) : Connection :=
  { conn with sockets := conn.sockets.modify index change }

/-- `close()` of a socket, which is about to close from then on. -/
def closeSocket (socket : Socket) : Socket :=
  if socket.readyState = .closed then socket else { socket with readyState := .closing }

/-- Detach the handlers and close. -/
def disown (socket : Socket) : Socket :=
  { closeSocket socket with owned := false }

/-- The socket is given up and a new one made at once. -/
def reconnectNow (conn : Connection) (now : Nat) : Connection :=
  if conn.closed then conn
  else
    let conn := { conn.clearTimer with reconnectTimeoutId := none, backoff := 1000 }
    let conn := match conn.ws with
      | some index => { conn.setSocket index disown with ws := none }
      | none => conn
    conn.connect now

/-- The state of the current socket. -/
def readyState (conn : Connection) : Option ReadyState :=
  (conn.ws.bind fun index => conn.sockets[index]?).map Socket.readyState

/-- Nothing was heard for too long. -/
def stale (conn : Connection) (now : Nat) : Bool :=
  now - conn.lastFrameAt > staleAfter

/-- The check of the interval. -/
def liveCheck (conn : Connection) (now : Nat) : Connection :=
  if conn.closed = false ∧ conn.readyState = some .opened ∧ conn.stale now then
    conn.reconnectNow now
  else conn

/-- The page comes back into view or online. -/
def onResume (conn : Connection) (now : Nat) (hidden : Bool) : Connection :=
  if conn.closed ∨ hidden then conn
  else if conn.readyState ≠ some .opened ∨ conn.stale now then conn.reconnectNow now
  else conn

/-- The last subscriber is gone: no timer and no listener stays. -/
def stop (conn : Connection) : Connection :=
  let conn := { conn.clearTimer with closed := true, liveChecks := false, listening := false }
  match conn.ws with
  | some index => conn.setSocket index closeSocket
  | none => conn

/-- Add a subscriber to a connection that runs, and replay what it missed. -/
def join (conn : Connection) (sub : Nat) : Connection :=
  { conn with
    subscribers := if sub ∈ conn.subscribers then conn.subscribers else conn.subscribers ++ [sub]
    called := conn.called ++ (conn.lastStatus.toList.map fun status => (sub, .onStatus status)) ++
      conn.lastBuild.toList.map fun build => (sub, .onHello build) }

end Connection

/-- `open`. -/
def openConnection (url : String) (first : Nat) (now : Nat) : Connection :=
  Connection.connect
    { url, subscribers := [first], lastStatus := none, lastBuild := none, ws := none,
      closed := false, backoff := 1000, reconnectTimeoutId := none, failsSinceOpen := 0,
      lastFrameAt := now, sockets := [], timers := [], nextTimer := 1, probes := 0,
      liveChecks := true, listening := true, called := [] } now

/-! ### Callbacks -/

/-- What the browser calls a connection for. -/
inductive Callback
  | opens (socket : Nat)
  | message (socket : Nat) (frame : Option Connection.Frame)
  | closing (socket : Nat)
  | closes (socket : Nat)
  | timeout (id : Nat)
  | liveCheck
  | resume (hidden : Bool)
  | probed (answer : Option Nat)

/-- Something happens to a socket in a state that admits it; the handler runs if it is still
attached. -/
def Connection.deliver (conn : Connection) (index : Nat) (admits : ReadyState → Bool)
    (change : Socket → Socket) (handler : Connection → Connection) : Option Connection :=
  match conn.sockets[index]? with
  | some socket =>
    if admits socket.readyState then
      let after := conn.setSocket index change
      some (if socket.owned then handler after else after)
    else none
  | none => none

/-- One callback, to its end. A socket carries frames only while it is open, and closes once. -/
def Connection.react (conn : Connection) (now : Nat) : Callback → Option Connection
  | .opens index =>
    conn.deliver index (· = .connecting)
      (fun socket => { socket with readyState := .opened, opened := true }) (·.onopen now)
  | .message index frame => conn.deliver index (· = .opened) id (·.onmessage now frame)
  | .closing index =>
    conn.deliver index (fun state => state = .connecting || state = .opened)
      (fun socket => { socket with readyState := .closing }) id
  | .closes index =>
    conn.deliver index (· ≠ .closed) (fun socket => { socket with readyState := .closed }) onclose
  | .timeout id =>
    if id ∈ conn.timers then
      some ({ conn with timers := conn.timers.filter (· ≠ id) }.connect now)
    else none
  | .liveCheck => if conn.liveChecks then some (conn.liveCheck now) else none
  | .resume hidden => if conn.listening then some (conn.onResume now hidden) else none
  | .probed answer =>
    if conn.probes = 0 then none
    else some ({ conn with probes := conn.probes - 1 }.finishClassify (classified answer))

/-! ### Hooks -/

/-- The page: the clock, the map `connections` to the connections ever opened, and the effects
that are to be cleaned up, each with its subscriber and its connection. -/
structure EventsPage where
  now : Nat
  connections : String → Option Nat
  conns : List Connection
  effects : List (Nat × Nat)

/-- A page without connections. -/
def blankPage (now : Nat) : EventsPage := ⟨now, fun _ => none, [], []⟩

/-- The effect of a hook, which is cleaned up before it runs again. -/
def EventsPage.subscribe (page : EventsPage) (url : String) (sub : Nat) : Option EventsPage :=
  if sub ∈ page.effects.map Prod.fst then none
  else
    match page.connections url with
    | some index =>
      match page.conns[index]? with
      | some conn => some { page with
          conns := page.conns.set index (conn.join sub)
          effects := page.effects ++ [(sub, index)] }
      | none => none
    | none => some { page with
        connections := Function.update page.connections url (some page.conns.length)
        conns := page.conns ++ [openConnection url sub page.now]
        effects := page.effects ++ [(sub, page.conns.length)] }

/-- The cleanup of a hook; the last one stops the connection. -/
def EventsPage.unsubscribe (page : EventsPage) (sub : Nat) : Option EventsPage :=
  match page.effects.find? (·.1 = sub) with
  | none => none
  | some effect =>
    match page.conns[effect.2]? with
    | none => none
    | some conn =>
      let conn := { conn with subscribers := conn.subscribers.filter (· ≠ sub) }
      let page := { page with effects := page.effects.filter (·.1 ≠ sub) }
      if conn.subscribers = [] then
        some { page with
          connections := Function.update page.connections conn.url none
          conns := page.conns.set effect.2 conn.stop }
      else some { page with conns := page.conns.set effect.2 conn }

/-- What happens on the page. -/
inductive EventsAction
  | wait (duration : Nat)
  | subscribe (url : String) (sub : Nat)
  | unsubscribe (sub : Nat)
  | call (index : Nat) (callback : Callback)

/-- A subscription, its end, or a callback of a connection. -/
def EventsPage.step (page : EventsPage) : EventsAction → Option EventsPage
  | .wait duration => some { page with now := page.now + duration }
  | .subscribe url sub => page.subscribe url sub
  | .unsubscribe sub => page.unsubscribe sub
  | .call index callback =>
    match page.conns[index]? with
    | some conn => (conn.react page.now callback).map fun after =>
        { page with conns := page.conns.set index after }
    | none => none

end Multimux
