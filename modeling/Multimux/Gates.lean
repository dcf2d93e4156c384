/-
This file models the daemon's HTTP surface: the routes, the websocket upgrades,
and the gates in front of them, as one function from a request to what becomes
of it. The gates look at the decoded path and the router at the escaped one;
each gate decides on its own whether a request carries an explicit token or
only a cookie. The content here is that they agree for every route, and which
requests pass while no passkey is stored.
-/

import Multimux.Auth
import Multimux.Hostname
import Multimux.Router
import Multimux.SessionTable

namespace Multimux

/-! ### Routes -/

/-- The handlers behind the router. -/
inductive Handler
  | healthz | manifest | iconSVG | caDownload | caInfo
  | setupBegin | setupFinish | loginBegin | loginFinish
  | me | logout | registerBegin | registerFinish | listCredentials | deleteCredential
  | listAuthSessions | deleteAuthSession | mintToken
  | listTools | createTool | reorderTools | updateTool | deleteTool
  | listDirs | createDir | reorderDirs | deleteDir | listSubdirs | deleteSubdir | listChildDirs
  | getSettings | putSettings | getAppearance | putAppearance | getPreferences | putPreferences
  | listSessions | createSession | sessionText | killSession | dismissSession | renameSession
  | upload | getLayout | putLayout
  | pty | events | static
  deriving DecidableEq

/-- The segments of a pattern from its text. -/
def patternOf (text : String) : List Segment :=
  (text.toList.tail.splitOn '/').map fun piece =>
    if piece.head? = some '{' then .wildcard else .literal piece

/-- A route of the router, from its pattern as it is written. -/
def route (method pattern : String) (handler : Handler) : MuxEntry Handler :=
  { method, pattern := patternOf pattern, handler }

/-- The one path that takes a body that is not JSON. -/
def uploadsPath : String := "/api/uploads"

/-- `routes`. -/
def apiMux : Mux Handler where
  fallback := .static
  routes := [
    route "GET" "/healthz" .healthz,
    route "GET" "/manifest.webmanifest" .manifest,
    route "GET" "/icon.svg" .iconSVG,
    route "GET" "/ca.crt" .caDownload,
    route "GET" "/ca/info" .caInfo,
    route "POST" "/api/auth/setup/begin" .setupBegin,
    route "POST" "/api/auth/setup/finish" .setupFinish,
    route "POST" "/api/auth/login/begin" .loginBegin,
    route "POST" "/api/auth/login/finish" .loginFinish,
    route "GET" "/api/auth/me" .me,
    route "POST" "/api/auth/logout" .logout,
    route "POST" "/api/auth/register/begin" .registerBegin,
    route "POST" "/api/auth/register/finish" .registerFinish,
    route "GET" "/api/auth/credentials" .listCredentials,
    route "DELETE" "/api/auth/credentials/{id}" .deleteCredential,
    route "GET" "/api/auth/sessions" .listAuthSessions,
    route "DELETE" "/api/auth/sessions/{hash}" .deleteAuthSession,
    route "POST" "/api/auth/token" .mintToken,
    route "GET" "/api/tools" .listTools,
    route "POST" "/api/tools" .createTool,
    route "PUT" "/api/tools/order" .reorderTools,
    route "PUT" "/api/tools/{id}" .updateTool,
    route "DELETE" "/api/tools/{id}" .deleteTool,
    route "GET" "/api/dirs" .listDirs,
    route "POST" "/api/dirs" .createDir,
    route "PUT" "/api/dirs/order" .reorderDirs,
    route "DELETE" "/api/dirs/{id}" .deleteDir,
    route "GET" "/api/dirs/{id}/subdirs" .listSubdirs,
    route "DELETE" "/api/dirs/{id}/subdirs" .deleteSubdir,
    route "GET" "/api/dirs/{id}/children" .listChildDirs,
    route "GET" "/api/settings" .getSettings,
    route "PUT" "/api/settings" .putSettings,
    route "GET" "/api/settings/appearance" .getAppearance,
    route "PUT" "/api/settings/appearance" .putAppearance,
    route "GET" "/api/settings/preferences" .getPreferences,
    route "PUT" "/api/settings/preferences" .putPreferences,
    route "GET" "/api/sessions" .listSessions,
    route "POST" "/api/sessions" .createSession,
    route "GET" "/api/sessions/{id}/text" .sessionText,
    route "DELETE" "/api/sessions/{id}" .killSession,
    route "POST" "/api/sessions/{id}/dismiss" .dismissSession,
    route "PUT" "/api/sessions/{id}/label" .renameSession,
    route "POST" uploadsPath .upload,
    route "GET" "/api/layout" .getLayout,
    route "PUT" "/api/layout" .putLayout,
    route "GET" "/ws/pty/{id}" .pty,
    route "GET" "/ws/events" .events]

/-- The handlers under `/api` and `/ws` other than the login and setup ceremonies. -/
def Handler.isGuarded : Handler → Bool
  | .healthz | .manifest | .iconSVG | .caDownload | .caInfo => false
  | .setupBegin | .setupFinish | .loginBegin | .loginFinish => false
  | .static => false
  | _ => true

/-- The handler upgrades the connection. -/
def Handler.isWebSocket : Handler → Bool
  | .pty | .events => true
  | _ => false

/-- The prefix of the API. -/
def underAPI : List Char := "/api/".toList

/-- The prefix of the websockets. -/
def underWS : List Char := "/ws/".toList

/-- The prefix of the login ceremony. -/
def underLogin : List Char := "/api/auth/login/".toList

/-- The prefix of the setup ceremony. -/
def underSetup : List Char := "/api/auth/setup/".toList

/-- `isProtected`. -/
def isProtected (path : List Char) : Bool :=
  (underAPI.isPrefixOf path || underWS.isPrefixOf path) &&
    !(underLogin.isPrefixOf path || underSetup.isPrefixOf path)

/-- Every guarded route fixes enough of its path to be protected. -/
theorem guarded_routes_fixed : ∀ route ∈ apiMux.routes, route.handler.isGuarded = true →
    (if route.handler.isWebSocket then underWS else underAPI).isPrefixOf
      (literalPrefix route.pattern) = true ∧
    ∀ opened ∈ [underLogin, underSetup], opened.isPrefixOf (literalPrefix route.pattern) = false ∧
      (literalPrefix route.pattern).isPrefixOf opened = false := by
  decide +kernel

theorem no_connect_route : ∀ route ∈ apiMux.routes, route.method ≠ "CONNECT" := by
  decide

/-- The request of a guarded handler is under the handler's prefix, and its path is protected. -/
theorem isProtected_of_found {method : String} {escaped path : List Char} {handler : Handler}
    {values : List (List Char)} (decoded : pathUnescape escaped = some path)
    (found : apiMux.handler method escaped = .found handler values)
    (guarded : handler.isGuarded = true) :
    (if handler.isWebSocket then underWS else underAPI).isPrefixOf path = true ∧
      isProtected path = true := by
  rcases Mux.route_of_found no_connect_route decoded found with rfl |
    ⟨route, listed, rfl, -, starts⟩
  · cases guarded
  · obtain ⟨under, apart⟩ := guarded_routes_fixed route listed guarded
    have below : (if route.handler.isWebSocket then underWS else underAPI).isPrefixOf path = true :=
      List.isPrefixOf_iff_prefix.mpr ((List.isPrefixOf_iff_prefix.mp under).trans starts)
    have notOpen : ∀ opened ∈ [underLogin, underSetup], opened.isPrefixOf path = false := by
      intro opened member
      obtain ⟨longer, shorter⟩ := apart opened member
      rw [Bool.eq_false_iff, ne_eq, List.isPrefixOf_iff_prefix] at longer shorter ⊢
      intro opens
      exact (List.prefix_or_prefix_of_prefix opens starts).elim longer shorter
    refine ⟨below, ?_⟩
    rw [isProtected, notOpen underLogin (by simp), notOpen underSetup (by simp)]
    split at below
    · rw [below, Bool.or_true]
      rfl
    · rw [below]
      rfl

/-! ### Requests and the server they meet -/

/-- A request as the handlers see it. A header that is absent reads as empty text; `mediaType` is
what `mime.ParseMediaType` makes of the content type, and `handshake` the headers of a websocket
handshake. -/
structure HttpRequest where
  method : String
  escapedPath : List Char
  path : List Char
  decoded : pathUnescape escapedPath = some path
  authorization : String
  queryToken : String
  cookies : List (String × String)
  origin : List Char
  contentLength : Int
  mediaType : String
  handshake : List (String × String)

/-- The scheme of the authorization header. -/
def bearer : List Char := "Bearer ".toList

/-- `ExplicitToken`. -/
def HttpRequest.explicitToken (request : HttpRequest) : String :=
  let header := request.authorization.toList
  if 7 < header.length ∧ header.take 7 = bearer then String.ofList (header.drop 7)
  else request.queryToken

/-- The name of the session cookie. -/
def cookieName : String := "mm_session"

/-- The token of the first cookie of the session's name. -/
def HttpRequest.cookieToken (request : HttpRequest) : String :=
  match request.cookies.find? fun cookie => cookie.1 = cookieName with
  | some cookie => cookie.2
  | none => ""

/-- The tokens of a request, as the middleware reads them. -/
def HttpRequest.tokens (request : HttpRequest) : AuthRequest where
  route := .plain
  explicitToken := request.explicitToken
  cookieToken := request.cookieToken

/-- `Upgrade` of the websocket package: the answer that refuses a request, if it does not upgrade
the connection. It reads the method and the headers of the handshake, and it is told what
`CheckOrigin` says of the request; what that refuses is refused. -/
structure Upgrader where
  refusal : String → List (String × String) → Bool → Option Response
  checks : ∀ method handshake, (refusal method handshake false).isSome = true

/-- The configuration and the state that a request meets, and which of its calls fail. -/
structure Server where
  noAuth : Bool
  origins : List (List Char)
  credentials : Nat
  counting : Outcome
  authSessions : AuthSessions
  now : Int
  reading : Outcome
  touching : Outcome
  getSession : Int → Except String (Option SessionStatus)
  upgrader : Upgrader

/-- What may answer a request before its handler: one of the gates, or the router. -/
inductive Gate
  | cors | setupGate | csrfGate | authGate | mux
  deriving DecidableEq

/-- What becomes of a request: a gate answers it or the router does, or its handler runs. The
handler of a websocket route upgrades the connection or refuses to. -/
inductive Served
  | answered (gate : Gate) (response : Response)
  | redirected
  | handled (handler : Handler)
  | refused (handler : Handler) (response : Response)
  | upgraded (handler : Handler)
  deriving DecidableEq

/-- An upgrader of every `GET` that asks for it. -/
def getUpgrader : Upgrader where
  refusal method handshake allowed :=
    if ("Upgrade", "websocket") ∉ handshake then some ⟨400, none⟩
    else if method ≠ "GET" then some ⟨405, none⟩
    else if allowed = false then some ⟨403, none⟩
    else none
  checks method handshake := by
    split
    · rfl
    · split <;> rfl

/-- A server without passkeys and sessions. -/
def freshServer : Server where
  noAuth := false
  origins := ["https://macmini.local:8686".toList]
  credentials := 0
  counting := .ok
  authSessions := []
  now := 0
  reading := .ok
  touching := .ok
  getSession _ := .ok none
  upgrader := getUpgrader

/-- A request without a body, a token or a cookie. -/
def bareRequest (method : String) (path : List Char)
    (decoded : pathUnescape path = some path) : HttpRequest where
  method
  escapedPath := path
  path
  decoded
  authorization := ""
  queryToken := ""
  cookies := []
  origin := []
  contentLength := 0
  mediaType := ""
  handshake := []

/-! ### Handlers of websocket routes -/

section Serving

variable (tables : TextTables) (hashToken : String → String)

/-- The origin is one of the server's, in any case of letters. -/
def Server.allowedOrigin (server : Server) (origin : List Char) : Bool :=
  server.origins.any fun own => toLower tables own = toLower tables origin

/-- The `CheckOrigin` of the upgrades: only a request with nothing but a cookie needs an own origin,
and may leave it out. -/
def Server.checkWSOrigin (server : Server) (request : HttpRequest) : Bool :=
  if request.explicitToken ≠ "" then true
  else if request.cookieToken = "" then true
  else request.origin = [] || server.allowedOrigin tables request.origin

/-- `wsUpgrader().Upgrade`, whose `CheckOrigin` is `checkWSOrigin`. -/
def Server.upgrade (server : Server) (handler : Handler) (request : HttpRequest) : Served :=
  match server.upgrader.refusal request.method request.handshake
      (server.checkWSOrigin tables request) with
  | some response => .refused handler response
  | none => .upgraded handler

/-- `handlePTY` up to the upgrade. -/
def Server.handlePTY (server : Server) (id : List Char) (request : HttpRequest) : Served :=
  if server.checkWSOrigin tables request = false then
    .refused .pty ⟨403, some "forbidden origin"⟩
  else
    match parseInt id with
    | none => .refused .pty ⟨400, some "bad id"⟩
    | some id =>
      match server.getSession id with
      | .error error => .refused .pty ⟨500, some error⟩
      | .ok none => .refused .pty ⟨404, some "not found"⟩
      | .ok (some .dead) => .refused .pty ⟨409, some "session is dead"⟩
      | .ok (some .running) => server.upgrade tables .pty request

/-- The router, with the handlers of the websocket routes. -/
def Server.serveMux (server : Server) (request : HttpRequest) : Served :=
  match apiMux.handler request.method request.escapedPath with
  | .badRequest => .answered .mux ⟨400, none⟩
  | .redirect => .redirected
  | .found .pty values => server.handlePTY tables (values.headD []) request
  | .found .events _ => server.upgrade tables .events request
  | .found handler _ => .handled handler

/-! ### Gates -/

/-- `ValidateToken`; that it also slides the expiry does not matter to the gates. -/
def Server.validateToken (server : Server) (token : String) : Except String Bool :=
  if token = "" then .ok false
  else
    match server.reading with
    | .fails error => .error error
    | .ok =>
      match server.authSessions.getAuthSession (hashToken token) with
      | none => .ok false
      | some session =>
        if session.expiresAt.parse < server.now then .ok false
        else if session.expiresAt.parse - server.now < slideThreshold then
          match server.touching with
          | .fails error => .error error
          | .ok => .ok true
        else .ok true

/-- `Middleware`: the token is validated, and the request goes on. -/
def Server.middleware (server : Server) (next : HttpRequest → Served) (request : HttpRequest) :
    Served :=
  match server.validateToken hashToken request.tokens.tokenFromRequest with
  | .error _ => .answered .authGate ⟨500, some "internal"⟩
  | .ok false => .answered .authGate ⟨401, some "unauthorized"⟩
  | .ok true => next request

/-- The gate that asks protected requests for a token. -/
def Server.authGate (server : Server) (next : HttpRequest → Served) (request : HttpRequest) :
    Served :=
  if server.noAuth then next request
  else if isProtected request.path then server.middleware hashToken next request
  else next request

/-- Methods without side effects. -/
def isSafe (method : String) : Bool := method = "GET" || method = "HEAD" || method = "OPTIONS"

/-- The body may be an image, on the path of the uploads. -/
def isUploadContentType (path : List Char) (mediaType : String) : Bool :=
  (mediaType = "image/png" || mediaType = "image/jpeg" || mediaType = "image/gif" ||
    mediaType = "image/webp") && path = uploadsPath.toList

/-- The check of the body's type, last in `csrfGate`. -/
def checkBody (next : HttpRequest → Served) (request : HttpRequest) : Served :=
  if request.contentLength ≠ 0 ∧ request.mediaType ≠ "application/json" ∧
      isUploadContentType request.path request.mediaType = false then
    .answered .csrfGate ⟨415, some "expected application/json"⟩
  else next request

/-- The gate that turns forged requests away, and bodies of another type. -/
def Server.csrfGate (server : Server) (next : HttpRequest → Served) (request : HttpRequest) :
    Served :=
  if underAPI.isPrefixOf request.path = false ∨ isSafe request.method then next request
  else if request.explicitToken = "" ∧ request.cookieToken ≠ "" ∧
      server.allowedOrigin tables request.origin = false then
    .answered .csrfGate ⟨403, some "forbidden origin"⟩
  else checkBody next request

/-- The gate that closes the API while no passkey is stored. -/
def Server.setupGate (server : Server) (next : HttpRequest → Served) (request : HttpRequest) :
    Served :=
  if server.noAuth then next request
  else
    match server.counting with
    | .fails _ => .answered .setupGate ⟨500, some "internal"⟩
    | .ok =>
      if server.credentials = 0 ∧ isProtected request.path ∧
          underSetup.isPrefixOf request.path = false then
        .answered .setupGate ⟨403, some "setup pending"⟩
      else next request

/-- An OPTIONS preflight, which CORS answers. -/
def HttpRequest.isPreflight (request : HttpRequest) : Bool :=
  underAPI.isPrefixOf request.path && request.method = "OPTIONS"

/-- `cors`, which answers the preflights itself. -/
def cors (next : HttpRequest → Served) (request : HttpRequest) : Served :=
  if request.isPreflight then .answered .cors ⟨204, none⟩ else next request

/-- `Handler`. The layers that log, set `no-store` or cap the body pass every request on. -/
def Server.serve (server : Server) : HttpRequest → Served :=
  cors (server.setupGate (server.csrfGate tables (server.authGate hashToken
    (server.serveMux tables))))

/-! ### Which gate answers -/

variable {tables : TextTables} {hashToken : String → String}

/-- The gate, or the router, that answered a request before any handler. -/
def Served.gate : Served → Option Gate
  | .answered gate _ => some gate
  | _ => none

theorem Server.gate_upgrade (server : Server) (handler : Handler) (request : HttpRequest) :
    (server.upgrade tables handler request).gate = none := by
  unfold Server.upgrade
  split <;> rfl

theorem Server.gate_handlePTY (server : Server) (id : List Char) (request : HttpRequest) :
    (server.handlePTY tables id request).gate = none := by
  unfold Server.handlePTY
  split
  · rfl
  · split
    · rfl
    · split
      · rfl
      · rfl
      · rfl
      · exact server.gate_upgrade .pty request

theorem Server.gate_serveMux (server : Server) (request : HttpRequest) :
    (server.serveMux tables request).gate ≠ some .setupGate := by
  unfold Server.serveMux
  split
  · exact nofun
  · exact nofun
  · rw [server.gate_handlePTY]
    exact nofun
  · rw [server.gate_upgrade]
    exact nofun
  · exact nofun

theorem Server.gate_authGate (server : Server) (request : HttpRequest) :
    (server.authGate hashToken (server.serveMux tables) request).gate ≠ some .setupGate := by
  unfold Server.authGate
  split
  · exact server.gate_serveMux request
  · split
    · unfold Server.middleware
      split
      · exact nofun
      · exact nofun
      · exact server.gate_serveMux request
    · exact server.gate_serveMux request

theorem Server.gate_csrfGate (server : Server) (request : HttpRequest) :
    (server.csrfGate tables (server.authGate hashToken (server.serveMux tables)) request).gate ≠
      some .setupGate := by
  unfold Server.csrfGate
  split
  · exact server.gate_authGate request
  · split
    · exact nofun
    · unfold checkBody
      split
      · exact nofun
      · exact server.gate_authGate request

/-! ### While no passkey is stored -/

/-- The setup gate answers the request itself, so nothing behind it runs: with 403, or with 500
when the passkeys cannot be counted. -/
def Server.StopsAtSetup (tables : TextTables) (hashToken : String → String) (server : Server)
    (request : HttpRequest) : Prop :=
  server.serve tables hashToken request = .answered .setupGate
    (match server.counting with
      | .ok => ⟨403, some "setup pending"⟩
      | .fails _ => ⟨500, some "internal"⟩)

/-- While no passkey is stored, a request under `/api/` or `/ws/` that is neither a preflight nor
under `/api/auth/setup/` is stopped by the setup gate exactly when it is not under
`/api/auth/login/` or the passkeys cannot be counted. -/
theorem setup_gate_stops_iff (tables : TextTables) (hashToken : String → String)
    (server : Server) (request : HttpRequest) (on : server.noAuth = false)
    (pending : server.credentials = 0)
    (under : (underAPI.isPrefixOf request.path || underWS.isPrefixOf request.path) = true)
    (notSetup : underSetup.isPrefixOf request.path = false)
    (notPreflight : request.isPreflight = false) :
    server.StopsAtSetup tables hashToken request ↔
      underLogin.isPrefixOf request.path = false ∨ ∃ error, server.counting = .fails error := by
  have reaches : server.serve tables hashToken request = server.setupGate (server.csrfGate tables
      (server.authGate hashToken (server.serveMux tables))) request := by
    rw [Server.serve, cors, notPreflight, if_neg Bool.false_ne_true]
  rw [Server.StopsAtSetup, reaches, Server.setupGate, on, if_neg Bool.false_ne_true]
  cases counted : server.counting with
  | fails error => exact iff_of_true rfl (.inr ⟨error, rfl⟩)
  | ok =>
    rw [isProtected, under, notSetup, Bool.or_false, Bool.true_and, pending]
    cases login : underLogin.isPrefixOf request.path with
    | false => exact iff_of_true rfl (.inl rfl)
    | true =>
      refine iff_of_false ?_ ?_
      · intro stops
        exact server.gate_csrfGate request (congrArg Served.gate stops)
      · rintro (impossible | ⟨_, impossible⟩)
        · cases impossible
        · cases impossible

theorem tools_stopped_at_setup :
    freshServer.StopsAtSetup asciiTables id (bareRequest "GET" "/api/tools".toList rfl) :=
  (setup_gate_stops_iff asciiTables id freshServer (bareRequest "GET" "/api/tools".toList rfl)
    rfl rfl (by decide) (by decide) (by decide)).mpr (.inl (by decide))

/-- A login ceremony begins while no passkey is stored. -/
theorem login_begins_at_setup :
    ¬ ∀ (tables : TextTables) (hashToken : String → String) (server : Server)
        (request : HttpRequest), server.noAuth = false → server.credentials = 0 →
        (underAPI.isPrefixOf request.path || underWS.isPrefixOf request.path) = true →
        underSetup.isPrefixOf request.path = false → request.isPreflight = false →
        server.StopsAtSetup tables hashToken request := by
  intro always
  have stops := always asciiTables id freshServer
    (bareRequest "POST" "/api/auth/login/begin".toList rfl) rfl rfl (by decide) (by decide)
    (by decide)
  have runs : freshServer.serve asciiTables id
      (bareRequest "POST" "/api/auth/login/begin".toList rfl) = .handled .loginBegin := by
    decide
  rw [Server.StopsAtSetup, runs] at stops
  cases stops

/-! ### Whose authority a request has -/

theorem Server.allowedOrigin_iff (server : Server) (origin : List Char) :
    server.allowedOrigin tables origin = true ↔
      ∃ own ∈ server.origins, toLower tables own = toLower tables origin := by
  simp [Server.allowedOrigin]

/-- A token is valid: it is not empty and its session has not expired. -/
def Server.ValidToken (hashToken : String → String) (server : Server) (token : String) : Prop :=
  token ≠ "" ∧ ∃ session, server.authSessions.getAuthSession (hashToken token) = some session ∧
    server.now ≤ session.expiresAt.parse

/-- The origin is one of the server's own, both folded to lower case. -/
def Server.OwnOrigin (tables : TextTables) (server : Server) (origin : List Char) : Prop :=
  ∃ own ∈ server.origins, toLower tables own = toLower tables origin

/-- The origin that a request with nothing but a cookie needs for a handler: an own one, which a
websocket upgrade may leave out and a safe method does not need. -/
def Server.OriginPasses (tables : TextTables) (server : Server) (request : HttpRequest)
    (handler : Handler) : Prop :=
  if handler.isWebSocket then request.origin = [] ∨ server.OwnOrigin tables request.origin
  else isSafe request.method = false → server.OwnOrigin tables request.origin

/-- The handler that a request has run; that of a websocket route only by an upgrade. -/
def Served.runs : Served → Option Handler
  | .handled handler | .upgraded handler => some handler
  | _ => none

theorem Server.runs_upgrade {server : Server} {handler other : Handler} {request : HttpRequest}
    (runs : (server.upgrade tables handler request).runs = some other) :
    other = handler ∧ server.checkWSOrigin tables request = true := by
  unfold Server.upgrade at runs
  split at runs
  · cases runs
  · rename_i upgrades
    cases runs
    refine ⟨rfl, Bool.not_eq_false _ ▸ fun refuses => ?_⟩
    have refused := server.upgrader.checks request.method request.handshake
    rw [← refuses, upgrades] at refused
    cases refused

theorem Server.runs_handlePTY {server : Server} {id : List Char} {other : Handler}
    {request : HttpRequest} (runs : (server.handlePTY tables id request).runs = some other) :
    other = .pty ∧ server.checkWSOrigin tables request = true := by
  unfold Server.handlePTY at runs
  split at runs
  · cases runs
  · split at runs
    · cases runs
    · split at runs
      · cases runs
      · cases runs
      · cases runs
      · exact Server.runs_upgrade runs

/-- A handler behind the router runs where the router found it, past the check of the origin for
a websocket. -/
theorem Server.runs_serveMux {server : Server} {request : HttpRequest} {handler : Handler}
    (runs : (server.serveMux tables request).runs = some handler) :
    (∃ values, apiMux.handler request.method request.escapedPath = .found handler values) ∧
      (handler.isWebSocket = true → server.checkWSOrigin tables request = true) := by
  unfold Server.serveMux at runs
  split at runs
  · cases runs
  · cases runs
  · rename_i values found
    obtain ⟨rfl, passes⟩ := Server.runs_handlePTY runs
    exact ⟨⟨values, found⟩, fun _ => passes⟩
  · rename_i values found
    obtain ⟨rfl, passes⟩ := Server.runs_upgrade runs
    exact ⟨⟨values, found⟩, fun _ => passes⟩
  · rename_i other values notPTY notEvents found
    cases runs
    refine ⟨⟨values, found⟩, fun webSocket => ?_⟩
    cases handler <;> try cases webSocket
    · exact absurd rfl notPTY
    · exact absurd rfl notEvents

theorem Server.validToken_of_validateToken {server : Server} {token : String}
    (valid : server.validateToken hashToken token = .ok true) :
    server.ValidToken hashToken token := by
  unfold Server.validateToken at valid
  split at valid
  · cases valid
  · rename_i nonempty
    split at valid
    · cases valid
    · split at valid
      · cases valid
      · rename_i session found
        split at valid
        · cases valid
        · rename_i alive
          exact ⟨nonempty, session, found, Int.not_lt.mp alive⟩

/-- The login sessions that a server's middleware works on. -/
def Server.authWorld (server : Server) (cookie : Option Cookie) : AuthWorld where
  now := server.now
  table := server.authSessions
  cookie

/-- A call of the store as the login sessions have it. -/
def Outcome.authChoice : Outcome → AuthChoice
  | .ok => .ok
  | .fails _ => .fails

/-- The middleware lets a request through exactly when its single steps do. -/
theorem Server.validateToken_iff_handling (server : Server) (request : AuthRequest)
    (cookie : Option Cookie) :
    server.validateToken hashToken request.tokenFromRequest = .ok true ↔
      ∃ session slid after,
        serveAuth hashToken (server.authWorld cookie) (.reading request)
          server.reading.authChoice = some (server.authWorld cookie, .sampling request session) ∧
        serveAuth hashToken (server.authWorld cookie) (.deciding request session server.now)
          server.touching.authChoice = some (after, .handling request slid) := by
  simp only [Server.validateToken, serveAuth, Server.authWorld]
  by_cases empty : request.tokenFromRequest = ""
  · simp [empty]
  rw [if_neg empty, if_neg empty]
  cases server.reading with
  | fails error => simp [Outcome.authChoice]
  | ok =>
    cases found : server.authSessions.getAuthSession (hashToken request.tokenFromRequest) with
    | none => simp [Outcome.authChoice]
    | some session =>
      by_cases expired : session.expiresAt.parse < server.now
      · simp [Outcome.authChoice, expired]
      · by_cases dips : session.expiresAt.parse - server.now < slideThreshold
        · cases server.touching <;> simp [Outcome.authChoice, expired, dips]
        · simp [Outcome.authChoice, expired, dips]

/-- Behind the authentication gate a protected request has a valid token. -/
theorem Server.runs_authGate {server : Server} {request : HttpRequest} {handler : Handler}
    (on : server.noAuth = false) (next : HttpRequest → Served)
    (runs : (server.authGate hashToken next request).runs = some handler) :
    (isProtected request.path = true →
      server.ValidToken hashToken request.tokens.tokenFromRequest) ∧
      (next request).runs = some handler := by
  rw [Server.authGate, on, if_neg Bool.false_ne_true] at runs
  split at runs
  · unfold Server.middleware at runs
    split at runs
    · cases runs
    · cases runs
    · rename_i valid
      exact ⟨fun _ => Server.validToken_of_validateToken valid, runs⟩
  · rename_i unprotected
    exact ⟨fun protect => absurd protect unprotected, runs⟩

/-- Behind the forgery gate a request under `/api/` of an unsafe method that has only a cookie
comes from an own origin. -/
theorem Server.runs_csrfGate {server : Server} {request : HttpRequest} {handler : Handler}
    (next : HttpRequest → Served)
    (runs : (server.csrfGate tables next request).runs = some handler) :
    (underAPI.isPrefixOf request.path = true → isSafe request.method = false →
      request.explicitToken = "" → request.cookieToken ≠ "" →
      server.allowedOrigin tables request.origin = true) ∧ (next request).runs = some handler := by
  unfold Server.csrfGate at runs
  split at runs
  · rename_i free
    refine ⟨fun under unsafe' => ?_, runs⟩
    rw [under, unsafe'] at free
    rcases free with impossible | impossible <;> cases impossible
  · split at runs
    · cases runs
    · rename_i passes
      refine ⟨fun _ _ cookieOnly cookie => ?_, ?_⟩
      · rw [← Bool.not_eq_false]
        exact fun foreign => passes ⟨cookieOnly, cookie, foreign⟩
      · unfold checkBody at runs
        split at runs
        · cases runs
        · exact runs

theorem Server.runs_setupGate {server : Server} {request : HttpRequest} {handler : Handler}
    (next : HttpRequest → Served) (runs : (server.setupGate next request).runs = some handler) :
    (next request).runs = some handler := by
  unfold Server.setupGate at runs
  split at runs
  · exact runs
  · split at runs
    · cases runs
    · split at runs
      · cases runs
      · exact runs

theorem runs_cors {request : HttpRequest} {handler : Handler} (next : HttpRequest → Served)
    (runs : (cors next request).runs = some handler) : (next request).runs = some handler := by
  unfold cors at runs
  split at runs
  · cases runs
  · exact runs

/-- What a request with a guarded handler must show: an explicit token that is valid, or no
explicit token, a valid cookie and an origin that passes. -/
def Server.Authorizes (tables : TextTables) (hashToken : String → String) (server : Server)
    (request : HttpRequest) (handler : Handler) : Prop :=
  request.explicitToken ≠ "" ∧ server.ValidToken hashToken request.explicitToken ∨
    request.explicitToken = "" ∧ server.ValidToken hashToken request.cookieToken ∧
      server.OriginPasses tables request handler

/-- Every request whose guarded handler runs is authorized. -/
theorem Server.authorizes_of_runs {server : Server} {request : HttpRequest} {handler : Handler}
    (on : server.noAuth = false) (guarded : handler.isGuarded = true)
    (runs : (server.serve tables hashToken request).runs = some handler) :
    server.Authorizes tables hashToken request handler := by
  obtain ⟨sameOrigin, behindCSRF⟩ :=
    Server.runs_csrfGate _ (Server.runs_setupGate _ (runs_cors _ runs))
  obtain ⟨valid, behindAuth⟩ := Server.runs_authGate on _ behindCSRF
  obtain ⟨⟨values, found⟩, checked⟩ := Server.runs_serveMux behindAuth
  obtain ⟨under, protect⟩ := isProtected_of_found request.decoded found guarded
  have token := valid protect
  by_cases explicit : request.explicitToken = ""
  · have cookie : server.ValidToken hashToken request.cookieToken := by
      rwa [AuthRequest.tokenFromRequest, HttpRequest.tokens, if_neg (not_not.mpr explicit)] at token
    refine .inr ⟨explicit, cookie, ?_⟩
    unfold Server.OriginPasses
    split
    · rename_i webSocket
      have passes := checked webSocket
      rw [Server.checkWSOrigin, if_neg (not_not.mpr explicit), if_neg cookie.1] at passes
      rcases Bool.or_eq_true_iff.mp passes with absent | own
      · exact .inl (of_decide_eq_true absent)
      · exact .inr ((server.allowedOrigin_iff request.origin).mp own)
    · rename_i plain
      rw [if_neg plain] at under
      exact fun unsafe' => (server.allowedOrigin_iff request.origin).mp
        (sameOrigin under unsafe' explicit cookie.1)
  · rw [AuthRequest.tokenFromRequest, HttpRequest.tokens, if_pos explicit] at token
    exact .inl ⟨explicit, token⟩

/-! ### A cookie beside an explicit token -/

section Cookies

variable (server : Server) {request : HttpRequest} (explicit : request.explicitToken ≠ "")
  (cookies : List (String × String))

include explicit

theorem Server.upgrade_cookies (handler : Handler) :
    server.upgrade tables handler { request with cookies } =
      server.upgrade tables handler request := by
  have same : ∀ cookies, server.checkWSOrigin tables { request with cookies } = true :=
    fun _ => if_pos explicit
  rw [Server.upgrade, Server.upgrade, same cookies, same request.cookies]

theorem Server.handlePTY_cookies (id : List Char) :
    server.handlePTY tables id { request with cookies } = server.handlePTY tables id request := by
  have same : ∀ cookies, server.checkWSOrigin tables { request with cookies } = true :=
    fun _ => if_pos explicit
  rw [Server.handlePTY, Server.handlePTY, same cookies, same request.cookies,
    server.upgrade_cookies explicit cookies]

theorem Server.serveMux_cookies :
    server.serveMux tables { request with cookies } = server.serveMux tables request := by
  unfold Server.serveMux
  simp only [server.handlePTY_cookies explicit cookies, server.upgrade_cookies explicit cookies]

variable (next : HttpRequest → Served) (same : next { request with cookies } = next request)

include same

theorem Server.middleware_cookies :
    server.middleware hashToken next { request with cookies } =
      server.middleware hashToken next request := by
  have token : ∀ cookies, ({ request with cookies } : HttpRequest).tokens.tokenFromRequest =
      request.explicitToken := fun _ => if_pos explicit
  unfold Server.middleware
  rw [token cookies, token request.cookies, same]

theorem Server.authGate_cookies :
    server.authGate hashToken next { request with cookies } =
      server.authGate hashToken next request := by
  unfold Server.authGate
  rw [same, server.middleware_cookies explicit cookies next same]

theorem Server.csrfGate_cookies :
    server.csrfGate tables next { request with cookies } =
      server.csrfGate tables next request := by
  have skips : ∀ cookies (origin : List Char), ¬ (({ request with cookies } :
      HttpRequest).explicitToken = "" ∧
        ({ request with cookies } : HttpRequest).cookieToken ≠ "" ∧
        server.allowedOrigin tables origin = false) := fun _ _ blocked => explicit blocked.1
  simp only [Server.csrfGate, checkBody, same, if_neg (skips cookies _),
    if_neg (skips request.cookies _)]

omit explicit

theorem Server.setupGate_cookies :
    server.setupGate next { request with cookies } = server.setupGate next request := by
  simp only [Server.setupGate, same]

theorem cors_cookies : cors next { request with cookies } = cors next request := by
  rw [cors, cors, same]
  rfl

end Cookies

/-- The cookies of a request with an explicit token do not matter. -/
theorem Server.serve_cookies (server : Server) {request : HttpRequest}
    (explicit : request.explicitToken ≠ "") (cookies : List (String × String)) :
    server.serve tables hashToken { request with cookies } =
      server.serve tables hashToken request :=
  cors_cookies cookies _ (server.setupGate_cookies cookies _ (server.csrfGate_cookies explicit
    cookies _ (server.authGate_cookies explicit cookies _ (server.serveMux_cookies explicit
      cookies))))

end Serving

/-! ### The gates agree -/

/-- A guarded handler runs only for a request that is authorized, and a request with an explicit
token is decided without its cookies, whatever passkeys are stored. -/
theorem cookie_authority_gated (tables : TextTables) (hashToken : String → String)
    (server : Server) (on : server.noAuth = false) :
    (∀ request handler, handler.isGuarded = true →
      (server.serve tables hashToken request).runs = some handler →
      server.Authorizes tables hashToken request handler) ∧
    ∀ request cookies, request.explicitToken ≠ "" →
      server.serve tables hashToken { request with cookies } =
        server.serve tables hashToken request :=
  ⟨fun _ _ guarded runs => Server.authorizes_of_runs on guarded runs,
    fun _ cookies explicit => server.serve_cookies explicit cookies⟩

/-- A cookie's request from the server's own origin, in capitals. -/
theorem own_origin_authorized :
    Server.Authorizes asciiTables id
      { freshServer with credentials := 1, authSessions := [⟨"token", "", ⟨0⟩, ⟨1⟩⟩] }
      { bareRequest "POST" "/api/tools".toList rfl with
        cookies := [("mm_session", "token")]
        origin := "HTTPS://MacMini.local:8686".toList } .createTool :=
  (cookie_authority_gated asciiTables id
    { freshServer with credentials := 1, authSessions := [⟨"token", "", ⟨0⟩, ⟨1⟩⟩] } rfl).1
    { bareRequest "POST" "/api/tools".toList rfl with
      cookies := [("mm_session", "token")]
      origin := "HTTPS://MacMini.local:8686".toList } .createTool rfl (by decide)

end Multimux
