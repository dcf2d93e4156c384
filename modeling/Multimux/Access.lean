/-
This file models all ways to a session together: setup with the printed code,
login with a passkey, and the requests behind the token gate that register
another passkey or mint a token. Their steps interleave over one table of
passkeys, one of sessions, and the two slots for a ceremony in progress. What
is granted is recorded with its ground. Every session in the table goes back,
grant by grant, to a request that presented the setup code.
-/

import Multimux.Auth
import Multimux.Setup

namespace Multimux

/-! ### Grounds and records -/

/-- Why something is granted: the setup code was presented, a passkey answered a challenge, or
the request brought the token of a session. -/
inductive Ground
  | setupCode (code : String)
  | passkey (id : String) (challenge : Nat)
  | session (tokenHash : String)
  deriving DecidableEq

/-- What is recorded of a passkey or a token, with the ground that it was given on. -/
inductive AccessRecord
  | registered (id : String) (ground : Ground)
  | granted (tokenHash : String) (ground : Ground)
  deriving DecidableEq

/-- The ground that a record names. -/
def AccessRecord.ground : AccessRecord → Ground
  | .registered _ ground | .granted _ ground => ground

/-! ### The shared state -/

/-- What the requests share. `loginSession` is the challenge of the login in progress and
`issued` the next fresh one; `refused` counts the wrong guesses that were compared with a code
in force, and `history` records the grants. -/
structure AccessWorld where
  setup : SetupWorld
  loginSession : Option Nat
  issued : Nat
  table : AuthSessions
  refused : Nat
  history : List AccessRecord

/-- A daemon that starts with a setup code and knows nobody yet. -/
def AccessWorld.firstStart (code : String) (now : Int) : AccessWorld where
  setup := newSetupCode code now
  loginSession := none
  issued := 0
  table := []
  refused := 0
  history := []

/-! ### Requests -/

/-- A passkey's response to a login challenge. -/
structure LoginAssertion where
  challenge : Nat
  credentialID : String
  deriving DecidableEq

/-- A request behind the token gate. -/
inductive GuardedRequest
  | registerBegin (keyName : Option String)
  | registerFinish (keyName : String) (attestation : Attestation)
  | mintToken

/-- The requests of the registration, the login and what lies behind the guard. -/
inductive AccessRequest
  | setup (request : SetupRequest)
  | loginBegin
  | loginFinish (assertion : LoginAssertion)
  | guarded (tokens : AuthRequest) (request : GuardedRequest)

/-- Where a request stands. A registration is the same in setup and behind the gate; a setup
request carries the code it presented and a guarded one the hash of the token it brought. -/
inductive AccessProc
  | setup (code : String) (proc : SetupProc)
  | guarding (auth : AuthProc) (request : GuardedRequest)
  | registering (tokenHash : String) (proc : SetupProc)
  | minting (tokenHash : String)
  | loginIssuing
  | loginPutting (challenge : Nat)
  | loginTaking (assertion : LoginAssertion)
  | loginVerifying (assertion : LoginAssertion) (challenge : Nat)
  | loginUpdating (assertion : LoginAssertion) (challenge : Nat)
  | loginCreating (assertion : LoginAssertion) (challenge : Nat)
  | answered (response : Response)

/-- How a call goes, and of a session that it creates the random token and the request's user
agent. -/
structure AccessChoice where
  outcome : Outcome
  token : String
  userAgent : String

/-- The answer to a mint without a name. -/
def keyNameError : String := "keyName required"

/-- The one answer to every login that fails. -/
def loginError : String := "login failed"

/-- The library's verdicts: whether an attestation is accepted for a challenge, and whether an
assertion is accepted for a challenge with the passkeys loaded for it. -/
structure WebAuthn where
  finishRegistration : Nat → Attestation → Bool
  finishDiscoverableLogin : Nat → List Credential → LoginAssertion → Bool

/-- What the daemon relies on: a login is accepted with a passkey that is loaded for it only. -/
def WebAuthn.AcceptsLoaded (webAuthn : WebAuthn) : Prop :=
  ∀ challenge credentials assertion,
    webAuthn.finishDiscoverableLogin challenge credentials assertion = true →
      ∃ credential ∈ credentials, credential.id = assertion.credentialID

section Access

variable (hashToken : String → String) (webAuthn : WebAuthn)

namespace AccessWorld

/-- `CreateSession`; a random token is none that any row has. -/
def createSession (world : AccessWorld) (token userAgent : String) (ground : Ground) :
    Option AccessWorld :=
  if (world.table.getAuthSession (hashToken token)).isSome then none
  else some { world with
    table := world.table ++ [⟨hashToken token, userAgent, .format world.setup.now,
      .format (world.setup.now + sessionTTL)⟩]
    history := world.history ++ [.granted (hashToken token) ground] }

end AccessWorld

/-- The guess at the setup code that the step compares. -/
def SetupProc.guess : SetupProc → Option String
  | .beginChecking body => some body.code
  | .finishChecking finish => some finish.code
  | _ => none

/-- The step compares a guess with a code in force and finds it wrong. -/
def SetupProc.guessesWrong (world : SetupWorld) (proc : SetupProc) : Bool :=
  proc.guess.any fun guess =>
    world.setupCode ≠ "" && ¬ world.setupExpiry < world.now && guess ≠ world.setupCode

/-- A step of setup or registration, with what it adds to the history. -/
def AccessWorld.register (world : AccessWorld) (proc : SetupProc) (ground : Ground)
    (outcome : Outcome) : Option (AccessWorld × SetupProc) :=
  (handleSetup webAuthn.finishRegistration world.setup proc outcome).map fun after => ({ world with
      setup := after.1
      refused := if proc.guessesWrong world.setup then world.refused + 1 else world.refused
      history := world.history ++ (after.1.credentials.drop world.setup.credentials.length).map
        fun credential => .registered credential.id ground },
    after.2)

/-- What a guarded request does once its token is found valid. -/
def GuardedRequest.start (tokenHash : String) : GuardedRequest → AccessProc
  | .registerBegin none => .answered ⟨400, some keyNameError⟩
  | .registerBegin (some keyName) =>
    if keyName = "" then .answered ⟨400, some keyNameError⟩
    else .registering tokenHash .beginLoading
  | .registerFinish keyName attestation =>
    .registering tokenHash (.finishTaking ⟨"", keyName, attestation⟩)
  | .mintToken => .minting tokenHash

/-- One step of a request. Whether `FinishDiscoverableLogin` accepts an assertion is the library's
verdict. -/
def handleAccess (world : AccessWorld) :
    AccessProc → AccessChoice → Option (AccessWorld × AccessProc)
  | .setup code .finishSigningIn, choice =>
    match choice.outcome with
    | .fails error => some (world, .answered ⟨500, some error⟩)
    | .ok =>
      (world.createSession hashToken choice.token choice.userAgent (.setupCode code)).map
        fun world => (world, .answered ⟨200, none⟩)
  | .setup code proc, choice =>
    (world.register webAuthn proc (.setupCode code) choice.outcome).map fun after =>
      (after.1, .setup code after.2)
  | .guarding (.handling tokens _) request, _ =>
    some (world, request.start (hashToken tokens.tokenFromRequest))
  | .guarding auth request, choice =>
    let go := match choice.outcome with | .ok => AuthChoice.ok | .fails _ => AuthChoice.fails
    (serveAuth hashToken ⟨world.setup.now, world.table, none⟩ auth go).map fun after =>
      ({ world with table := after.1.table }, .guarding after.2 request)
  | .registering _ .finishCompleting, _ => some (world, .answered ⟨200, none⟩)
  | .registering tokenHash proc, choice =>
    (world.register webAuthn proc (.session tokenHash) choice.outcome).map fun after =>
      (after.1, .registering tokenHash after.2)
  | .minting tokenHash, choice =>
    match choice.outcome with
    | .fails error => some (world, .answered ⟨500, some error⟩)
    | .ok => (world.createSession hashToken choice.token ("cross-origin: " ++ choice.userAgent)
        (.session tokenHash)).map fun world => (world, .answered ⟨200, none⟩)
  | .loginIssuing, choice =>
    match choice.outcome with
    | .fails error => some (world, .answered ⟨500, some error⟩)
    | .ok => some ({ world with issued := world.issued + 1 }, .loginPutting world.issued)
  | .loginPutting challenge, _ =>
    some ({ world with loginSession := some challenge }, .answered ⟨200, none⟩)
  | .loginTaking assertion, _ =>
    match world.loginSession with
    | none => some (world, .answered ⟨401, some loginError⟩)
    | some challenge =>
      some ({ world with loginSession := none }, .loginVerifying assertion challenge)
  | .loginVerifying assertion challenge, choice =>
    -- the passkeys are loaded in the library's callback
    match choice.outcome with
    | .fails _ => some (world, .answered ⟨401, some loginError⟩)
    | .ok =>
      if webAuthn.finishDiscoverableLogin challenge world.setup.credentials assertion then
        some (world, .loginUpdating assertion challenge)
      else none
  | .loginUpdating assertion challenge, choice =>
    match choice.outcome with
    | .fails _ => some (world, .answered ⟨401, some loginError⟩)
    | .ok => some (world, .loginCreating assertion challenge)
  | .loginCreating assertion challenge, choice =>
    match choice.outcome with
    | .fails error => some (world, .answered ⟨500, some error⟩)
    | .ok => (world.createSession hashToken choice.token choice.userAgent
        (.passkey assertion.credentialID challenge)).map fun world => (world, .answered ⟨200, none⟩)
  | .answered _, _ => none

/-- What happens besides: time passes, rows and passkeys go away. -/
inductive AccessEvent
  | wait (duration : Nat)
  | sweep (sampled : Int)
  | revoke (tokenHash : String)
  | deleteCredential (id : String)
  | resetAuth

/-- What happens besides the requests: time passes, expired rows are swept, a session is revoked. -/
def AccessWorld.occur (world : AccessWorld) : AccessEvent → Option AccessWorld
  | .wait duration =>
    some { world with setup := { world.setup with now := world.setup.now + duration } }
  | .sweep sampled => some { world with table := world.table.deleteExpiredAuthSessions sampled }
  | .revoke tokenHash => some { world with table := world.table.deleteAuthSession tokenHash }
  | .deleteCredential id => some { world with
      setup := { world.setup with credentials := world.setup.credentials.filter (·.id ≠ id) } }
  | .resetAuth => some { world with setup := { world.setup with credentials := [] }, table := [] }

/-- A request before its first call. -/
def AccessRequest.enter : AccessRequest → AccessProc
  | .setup (.setupBegin body) => .setup ((body.map SetupBegin.code).getD "") (.beginCounting body)
  | .setup (.setupFinish finish) => .setup finish.code (.finishCounting finish)
  | .loginBegin => .loginIssuing
  | .loginFinish assertion => .loginTaking assertion
  | .guarded tokens request => .guarding (.reading tokens) request

/-- Overlapping requests for access. -/
def accessMachine : Machine AccessWorld AccessRequest AccessProc AccessChoice AccessEvent where
  enter := AccessRequest.enter
  step := handleAccess hashToken webAuthn
  outside := AccessWorld.occur

end Access

end Multimux
