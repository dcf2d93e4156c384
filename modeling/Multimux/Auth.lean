/-
This file models login sessions: the token table, the sliding expiry that
validating a token applies, the middleware that re-issues the cookie when the
expiry slid, and the browser that holds the cookie. A request is a process; its
store calls, its clock reading and the arrival of its response are separate
steps, so requests overlap in every way. The header a response carries is what
reaches the browser, and a websocket upgrade writes a response of its own.
-/

import Multimux.Clock
import Multimux.Credentials

namespace Multimux

/-! ### The token table -/

/-- A row of `auth_sessions`. -/
structure AuthSession where
  tokenHash : String
  userAgent : String
  createdAt : Rfc3339
  expiresAt : Rfc3339
  deriving DecidableEq

/-- The table `auth_sessions`. -/
abbrev AuthSessions := List AuthSession

/-- The row of a token hash, the table's primary key. -/
def AuthSessions.getAuthSession (table : AuthSessions) (tokenHash : String) :
    Option AuthSession :=
  table.find? fun session => session.tokenHash = tokenHash

/-- `UPDATE` of the expiry of a row. -/
def AuthSessions.touchAuthSession (table : AuthSessions) (tokenHash : String) (expires : Int) :
    AuthSessions :=
  table.map fun session =>
    if session.tokenHash = tokenHash then { session with expiresAt := .format expires } else session

/-- `DELETE` of a row. -/
def AuthSessions.deleteAuthSession (table : AuthSessions) (tokenHash : String) : AuthSessions :=
  table.filter fun session => session.tokenHash ≠ tokenHash

/-- The text comparison `expires_at < ?` is the comparison of the seconds. -/
def AuthSessions.deleteExpiredAuthSessions (table : AuthSessions) (now : Int) : AuthSessions :=
  table.filter fun session => ¬ session.expiresAt.seconds < (Rfc3339.format now).seconds

theorem AuthSessions.mem_touchAuthSession {table : AuthSessions} {tokenHash : String}
    {expires : Int} {session : AuthSession}
    (member : session ∈ table.touchAuthSession tokenHash expires) :
    (session.tokenHash = tokenHash ∧ session.expiresAt = .format expires) ∨
      (session.tokenHash ≠ tokenHash ∧ session ∈ table) := by
  obtain ⟨row, present, rfl⟩ := List.mem_map.mp member
  by_cases same : row.tokenHash = tokenHash
  · simp [same]
  · simp [same, present]

theorem AuthSessions.deleteAuthSession_subset (table : AuthSessions) (tokenHash : String) :
    table.deleteAuthSession tokenHash ⊆ table :=
  List.filter_sublist.subset

theorem AuthSessions.deleteExpiredAuthSessions_subset (table : AuthSessions) (now : Int) :
    table.deleteExpiredAuthSessions now ⊆ table :=
  List.filter_sublist.subset

/-! ### Sessions and cookies -/

/-- How long a login lasts without a request. -/
def sessionTTL : Int := 30 * 24 * hour

/-- The expiry slides when the remaining life dips below this. -/
def slideThreshold : Int := 29 * 24 * hour

/-- The session cookie as the browser holds it: its token and when its `Max-Age` runs out. -/
structure Cookie where
  token : String
  expires : Int
  deriving DecidableEq

/-- What a response tells the browser to do with its session cookie: nothing, keep it for
`MaxAge` from now on, or drop it. -/
inductive SetCookie
  | absent
  | sessionCookie (token : String)
  | removal
  deriving DecidableEq

/-- The cookie of `SessionCookie`, whose `MaxAge` is the whole `sessionTTL`, received at an
instant. -/
def SetCookie.receive (cookie : Option Cookie) (now : Int) : SetCookie → Option Cookie
  | .absent => cookie
  | .sessionCookie token => some { token, expires := now + sessionTTL }
  | .removal => none

/-! ### Requests -/

/-- The handlers, as far as their response matters to the cookie: a websocket handler may
upgrade the connection, logout ends the session, and the rest answer through the
`ResponseWriter`. -/
inductive Route
  | plain
  | logout
  | events
  | pty
  deriving DecidableEq

/-- The handler upgrades the connection. -/
def Route.isWebSocket : Route → Bool
  | .events | .pty => true
  | .plain | .logout => false

/-- A request for a protected route: the token it attaches explicitly and the one in its
cookie, empty where it has none. -/
structure AuthRequest where
  route : Route
  explicitToken : String
  cookieToken : String
  deriving DecidableEq

/-- The token that counts: an explicit one goes before the cookie. -/
def AuthRequest.tokenFromRequest (request : AuthRequest) : String :=
  if request.explicitToken ≠ "" then request.explicitToken else request.cookieToken

/-- What answers a request: the middleware with 401 `unauthorized` or 500 `internal`, the
handler through the `ResponseWriter`, or the upgrade with its own 101. -/
inductive AuthResponse
  | unauthorized
  | internal
  | handled
  | switchingProtocols
  deriving DecidableEq

/-- Where a request stands: `ValidateToken` reads the row, samples the clock and decides; the
handler runs; the response travels to the browser. -/
inductive AuthProc
  | reading (request : AuthRequest)
  | sampling (request : AuthRequest) (session : AuthSession)
  | deciding (request : AuthRequest) (session : AuthSession) (now : Int)
  | handling (request : AuthRequest) (slid : Bool)
  | responding (response : AuthResponse) (header : SetCookie)
  | answered
  deriving DecidableEq

/-- What is left open to the surroundings: a store call may fail, and a websocket handler may
upgrade the connection or refuse to. -/
inductive AuthChoice
  | ok
  | fails
  | upgrades
  deriving DecidableEq

/-- The server's clock and table, and the session cookie the browser holds. -/
structure AuthWorld where
  now : Int
  table : AuthSessions
  cookie : Option Cookie

/-- The header that `Middleware` has set when the handler runs: an explicit token has no cookie
to keep alive. -/
def AuthRequest.renewal (request : AuthRequest) (slid : Bool) : SetCookie :=
  if slid ∧ request.explicitToken = "" then .sessionCookie request.tokenFromRequest else .absent

/-- The response of a handler. `Upgrade(w, r, nil)` writes its own 101 response, which has none
of the headers set on `w`; every other response goes out through `w`. -/
def handle (hashToken : String → String) (world : AuthWorld) (request : AuthRequest)
    (slid : Bool) : AuthChoice → Option (AuthWorld × AuthProc)
  | .upgrades =>
    if request.route.isWebSocket then some (world, .responding .switchingProtocols .absent)
    else none
  | choice =>
    match request.route with
    | .logout => some ({ world with
          table := if choice = .fails then world.table
            else world.table.deleteAuthSession (hashToken request.tokenFromRequest) },
        .responding .handled .removal)
    | _ => some (world, .responding .handled (request.renewal slid))

/-- `Middleware` and `ValidateToken`, one store call, clock reading or response at a time. The
error of the delete of an expired row is ignored, so its failure only keeps the row. -/
def serveAuth (hashToken : String → String) (world : AuthWorld) :
    AuthProc → AuthChoice → Option (AuthWorld × AuthProc)
  | .reading request, choice =>
    if request.tokenFromRequest = "" then some (world, .responding .unauthorized .absent)
    else if choice = .fails then some (world, .responding .internal .absent)
    else
      match world.table.getAuthSession (hashToken request.tokenFromRequest) with
      | none => some (world, .responding .unauthorized .absent)
      | some session => some (world, .sampling request session)
  | .sampling request session, _ => some (world, .deciding request session world.now)
  | .deciding request session now, choice =>
    if session.expiresAt.parse < now then
      some ({ world with
          table := if choice = .fails then world.table
            else world.table.deleteAuthSession (hashToken request.tokenFromRequest) },
        .responding .unauthorized .absent)
    else if session.expiresAt.parse - now < slideThreshold then
      if choice = .fails then some (world, .responding .internal .absent)
      else some ({ world with
          table := world.table.touchAuthSession (hashToken request.tokenFromRequest)
            (now + sessionTTL) },
        .handling request true)
    else some (world, .handling request false)
  | .handling request slid, choice => handle hashToken world request slid choice
  | .responding _ header, _ =>
    some ({ world with cookie := header.receive world.cookie world.now }, .answered)
  | .answered, _ => none

/-- What happens besides: time passes, expired rows are swept, a row is revoked, and another
login stores its row under a new key. -/
inductive AuthEvent
  | wait (duration : Nat)
  | sweep (sampled : Int)
  | revoke (tokenHash : String)
  | create (session : AuthSession)

/-- What happens besides the requests: time passes, expired rows are swept, a session is revoked or
created. -/
def occurAuth (world : AuthWorld) : AuthEvent → Option AuthWorld
  | .wait duration => some { world with now := world.now + duration }
  | .sweep sampled =>
    if sampled ≤ world.now then
      some { world with table := world.table.deleteExpiredAuthSessions sampled }
    else none
  | .revoke tokenHash => some { world with table := world.table.deleteAuthSession tokenHash }
  | .create session =>
    if (world.table.getAuthSession session.tokenHash).isSome then none
    else some { world with table := world.table ++ [session] }

/-- Overlapping requests over one token table. The token hash is a parameter. -/
def authMachine (hashToken : String → String) :
    Machine AuthWorld AuthRequest AuthProc AuthChoice AuthEvent where
  enter := .reading
  step := serveAuth hashToken
  outside := occurAuth

end Multimux
