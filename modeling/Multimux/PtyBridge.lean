/-
This file models one PTY socket from its upgrade to the return of its handler.
Three goroutines share it: the handler reads what the browser sends, the pump
forwards what the attached tmux client prints, and the pinger finds out that the
browser is gone. Each call is one step, so the goroutines, the browser, tmux and
the clock interleave in every way. A call that waits for tmux has no deadline: a
write to the PTY, `resize-window` and `has-session` block for as long as tmux
hangs. Starting the attached client and killing it wait for nobody.
-/

import Multimux.Bytes
import Multimux.Clock

namespace Multimux

/-! ### Frames -/

/-- How long a socket may go without a frame from the browser. -/
def pongWait : Int := 75 * second

/-- The buffer of the pump. -/
def pumpBuffer : Nat := 16384

/-- What the browser sends as text. -/
structure ResizeMsg where
  type : String
  cols : UInt16
  rows : UInt16
  active : Bool

/-- A frame of the browser. A text is kept as what `json.Unmarshal` reads from it, if it does. -/
inductive BrowserFrame
  | binary (data : Bytes)
  | text (message : Option ResizeMsg)
  | pong

/-- A frame of the daemon; its pings and its answer to a close of the browser are left out. -/
inductive DaemonFrame
  | binary (data : Bytes)
  | exit
  | close
  deriving DecidableEq

/-- What the handler does for the browser: it writes to the PTY, or it asks the arbiter for a
resize. -/
inductive PtyInput
  | write (data : Bytes)
  | resize (cols rows : UInt16) (active : Bool)
  deriving DecidableEq

/-! ### The goroutines -/

/-- Where the handler stands. The places from `closingPty` on are the end of the handler and its
deferred calls; the PTY is closed twice. -/
inductive PtyHandler
  | registering
  | attaching
  | checking
  | reporting
  | reading
  | typing (data : Bytes)
  | resizing (cols rows : UInt16) (active : Bool)
  | closingPty
  | awaitingPump
  | deferredClose
  | stoppingPing
  | unregistering
  | closingConn
  | returned
  deriving DecidableEq

/-- Where the pump stands; `last` tells that its read came back with an error too. -/
inductive PtyPump
  | absent
  | reading
  | writing (data : Bytes) (last : Bool)
  | checking
  | reporting
  | sayingClose
  | quitting
  | done
  deriving DecidableEq

/-- Where the pinger stands; it closes the socket before it quits. -/
inductive PtyPinger
  | absent
  | waiting
  | quitting
  | stopped
  deriving DecidableEq

/-- The socket with what its goroutines share. `inbound` is what arrived and is not read yet,
`printed` what the attached client printed and the pump has not read. A stalled browser reads
nothing, so that no write goes through; a broken one is gone. A tmux that is hung answers no
command and reads nothing from the PTY. The last five fields are history
variables: every frame that arrived, everything that was printed, when the last frame was read,
and whether a `has-session` said that the session is gone or could not run. -/
structure PtySocket where
  now : Int
  alive : Bool
  inbound : List BrowserFrame
  broken : Bool
  stalled : Bool
  hung : Bool
  deadline : Int
  connOpen : Bool
  sent : List DaemonFrame
  attached : Bool
  ended : Bool
  printed : Bytes
  inputs : List PtyInput
  registered : Bool
  stop : Bool
  handler : PtyHandler
  pump : PtyPump
  pinger : PtyPinger
  arrived : List BrowserFrame
  output : Bytes
  heard : Int
  gone : Bool
  misled : Bool

/-- How a call goes. A write to the PTY may break off; a read of it has a length, and may come
back with an error as well; the pinger may see that it is to stop. -/
inductive PtyChoice
  | ok
  | fails
  | breaks (count : Nat)
  | reads (count : Nat) (last : Bool)
  | stops
  deriving DecidableEq

namespace PtySocket

/-- A socket that was just upgraded. -/
def upgraded (now : Int) (alive : Bool) : PtySocket where
  now
  alive
  inbound := []
  broken := false
  stalled := false
  hung := false
  deadline := now
  connOpen := true
  sent := []
  attached := false
  ended := false
  printed := []
  inputs := []
  registered := false
  stop := false
  handler := .registering
  pump := .absent
  pinger := .absent
  arrived := []
  output := []
  heard := now
  gone := false
  misled := false

/-- `WriteMessage`, which has no deadline: it blocks while the browser reads nothing. -/
def writeMessage (socket : PtySocket) (frame : DaemonFrame) : PtyChoice → Option PtySocket
  | .ok =>
    if socket.connOpen && !socket.stalled then some { socket with sent := socket.sent ++ [frame] }
    else none
  | .fails => if !socket.connOpen || socket.broken then some socket else none
  | _ => none

/-- `IsAlive`, which is false too when the command cannot run. -/
def isAlive (socket : PtySocket) : PtyChoice → Option (PtySocket × Bool)
  | .ok =>
    if socket.hung then none
    else some ({ socket with gone := socket.gone || !socket.alive }, socket.alive)
  | .fails => some ({ socket with misled := true }, false)
  | _ => none

/-- What the read loop goes on to do with a frame. -/
def afterRead : BrowserFrame → PtyHandler
  | .binary data => .typing data
  | .text (some message) =>
    if message.type = "resize" && 0 < message.cols && 0 < message.rows then
      .resizing message.cols message.rows message.active
    else .reading
  | .text none => .reading
  | .pong => .reading

/-- `handlePTY` from the registration on. -/
def stepHandler (socket : PtySocket) (choice : PtyChoice) : Option PtySocket :=
  match socket.handler with
  | .registering => some { socket with
      registered := true, deadline := socket.now + pongWait, heard := socket.now,
      pinger := .waiting, handler := .attaching }
  | .attaching =>
    if choice = .ok then
      some { socket with attached := true, pump := .reading, handler := .reading }
    else some { socket with handler := .checking }
  | .checking => (socket.isAlive choice).map fun answer =>
      { answer.1 with handler := if answer.2 then .stoppingPing else .reporting }
  | .reporting => (socket.writeMessage .exit choice).map fun after =>
      { after with handler := .stoppingPing }
  | .reading =>
    match choice with
    | .ok => socket.inbound.head?.map fun frame => { socket with
        inbound := socket.inbound.tail, deadline := socket.now + pongWait, heard := socket.now,
        handler := afterRead frame }
    | .fails =>
      if !socket.connOpen || socket.broken || socket.deadline ≤ socket.now then
        some { socket with handler := .closingPty }
      else none
    | _ => none
  | .typing data =>
    match choice with
    | .ok =>
      if socket.hung then none
      else some { socket with inputs := socket.inputs ++ [.write data], handler := .reading }
    | .breaks count => some { socket with
        inputs := socket.inputs ++ [.write (data.take count)], handler := .closingPty }
    | _ => none
  | .resizing cols rows active =>
    -- only a resize of the window, which the arbiter may deny, is a command of tmux
    if choice = .ok && socket.hung then none
    else some { socket with
      inputs := socket.inputs ++ [.resize cols rows active], handler := .reading }
  | .closingPty => some { socket with attached := false, handler := .awaitingPump }
  | .awaitingPump =>
    if socket.pump = .done then some { socket with handler := .deferredClose } else none
  | .deferredClose => some { socket with attached := false, handler := .stoppingPing }
  | .stoppingPing => some { socket with stop := true, handler := .unregistering }
  | .unregistering => some { socket with registered := false, handler := .closingConn }
  | .closingConn => some { socket with connOpen := false, handler := .returned }
  | .returned => none

/-- The goroutine from the PTY to the socket. -/
def stepPump (socket : PtySocket) (choice : PtyChoice) : Option PtySocket :=
  match socket.pump with
  | .reading =>
    match choice with
    | .reads count last =>
      if socket.attached && 0 < count && count ≤ pumpBuffer && count ≤ socket.printed.length &&
          (!last || socket.ended && count = socket.printed.length) then
        some { socket with
          printed := socket.printed.drop count
          pump := .writing (socket.printed.take count) last }
      else none
    | .fails =>
      if !socket.attached || socket.ended && socket.printed = [] then
        some { socket with pump := .checking }
      else none
    | _ => none
  | .writing data last => (socket.writeMessage (.binary data) choice).map fun after =>
      { after with
        pump := if choice = .fails then .quitting else if last then .checking else .reading }
  | .checking => (socket.isAlive choice).map fun answer =>
      { answer.1 with pump := if answer.2 then .sayingClose else .reporting }
  | .reporting => (socket.writeMessage .exit choice).map fun after =>
      { after with pump := .sayingClose }
  | .sayingClose =>
    match choice with
    | .ok =>
      if socket.connOpen && !socket.stalled then
        some { socket with sent := socket.sent ++ [.close], pump := .quitting }
      else none
    | .fails =>
      if !socket.connOpen || socket.broken || socket.stalled then
        some { socket with pump := .quitting }
      else none
    | _ => none
  | .quitting => some { socket with connOpen := false, pump := .done }
  | .absent | .done => none

/-- The goroutine with the ticker. A ping that is not written in time counts as failed. -/
def stepPinger (socket : PtySocket) (choice : PtyChoice) : Option PtySocket :=
  match socket.pinger with
  | .waiting =>
    match choice with
    | .ok => if socket.connOpen && !socket.stalled then some socket else none
    | .fails =>
      if !socket.connOpen || socket.broken || socket.stalled then
        some { socket with pinger := .quitting }
      else none
    | .stops => if socket.stop then some { socket with pinger := .stopped } else none
    | _ => none
  | .quitting => some { socket with connOpen := false, pinger := .stopped }
  | .absent | .stopped => none

end PtySocket

/-! ### The surroundings -/

/-- What the clock, the browser and tmux do. -/
inductive PtyEvent
  | wait (duration : Nat)
  | sends (frame : BrowserFrame)
  | stalls
  | resumes
  | leaves
  | hangs
  | answers
  | prints (data : Bytes)
  | detaches
  | sessionEnds

/-- The browser may send as long as it is there, and the attached client print while it runs. -/
def PtySocket.occur (socket : PtySocket) : PtyEvent → Option PtySocket
  | .wait duration => some { socket with now := socket.now + duration }
  | .sends frame =>
    if socket.broken then none
    else some { socket with
      inbound := socket.inbound ++ [frame], arrived := socket.arrived ++ [frame] }
  | .stalls => some { socket with stalled := true }
  | .resumes => some { socket with stalled := false }
  | .leaves => some { socket with broken := true }
  | .hangs => some { socket with hung := true }
  | .answers => some { socket with hung := false }
  | .prints data =>
    if socket.attached && !socket.ended then
      some { socket with printed := socket.printed ++ data, output := socket.output ++ data }
    else none
  | .detaches => if socket.attached then some { socket with ended := true } else none
  | .sessionEnds => some { socket with alive := false }

/-- A step of one of the goroutines, or of their surroundings. -/
inductive PtyAction
  | handler (choice : PtyChoice)
  | pump (choice : PtyChoice)
  | pinger (choice : PtyChoice)
  | occur (event : PtyEvent)

/-- A step of the whole connection. -/
def PtySocket.next (socket : PtySocket) : PtyAction → Option PtySocket
  | .handler choice => socket.stepHandler choice
  | .pump choice => socket.stepPump choice
  | .pinger choice => socket.stepPinger choice
  | .occur event => socket.occur event

end Multimux
