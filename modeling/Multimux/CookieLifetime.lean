/-
This file compares how long the browser keeps the session cookie with how long
the server keeps the session. Whenever validating a token slides the row's
expiry, the request's response is to carry a renewed cookie; the cookie then
runs out no earlier than the row. The one response that slides the row and
renews nothing is the 101 of an accepted websocket upgrade, and until a response
that carries the cookie has arrived, the browser's copy is the older one.
-/

import Multimux.Auth

namespace Multimux

/-! ### The session of a login and the runs after it -/

/-- The state a login leaves: the row expires a full TTL after the login's clock reading, the
cookie a full TTL after its response arrived. -/
def afterLogin (hashToken : String → String) (token userAgent : String) (signedIn arrived : Int)
    (others : AuthSessions) : Pool AuthWorld AuthProc where
  world := {
    now := arrived
    table := { tokenHash := hashToken token, userAgent, createdAt := .format signedIn,
               expiresAt := .format (signedIn + sessionTTL) } :: others
    cookie := some { token, expires := arrived + sessionTTL } }
  procs := []

/-- The runs in question: every request is authenticated by the login's cookie alone, and no
other login draws the same token. -/
def CookieOnly (hashToken : String → String) (token : String) :
    Move AuthRequest AuthChoice AuthEvent → Prop
  | .arrive request => request.explicitToken = "" ∧ request.cookieToken = token
  | .occur (.create session) => session.tokenHash ≠ hashToken token
  | _ => True

/-- A request whose response is to carry a `Set-Cookie` that has not arrived yet. -/
def AuthProc.carriesCookie : AuthProc → Bool
  | .handling _ slid => slid
  | .responding _ header => header ≠ .absent
  | _ => false

/-- Renewals reach the browser: no websocket upgrade is accepted for a request that slid the
expiry, and no response without a cookie overtakes one that carries it. -/
def RenewalArrives (pool : Pool AuthWorld AuthProc) :
    Move AuthRequest AuthChoice AuthEvent → Prop
  | .advance index choice =>
    match pool.procs[index]? with
    | some (.handling _ true) => choice ≠ .upgrades
    | some (.responding _ .absent) =>
      ∀ other ∈ pool.procs.eraseIdx index, other.carriesCookie = false
    | _ => True
  | _ => True

instance CookieOnly.decidable (hashToken : String → String) (token : String) :
    DecidablePred (CookieOnly hashToken token)
  | .arrive _ => inferInstanceAs (Decidable (_ ∧ _))
  | .advance _ _ => .isTrue trivial
  | .occur (.wait _) => .isTrue trivial
  | .occur (.sweep _) => .isTrue trivial
  | .occur (.revoke _) => .isTrue trivial
  | .occur (.create _) => inferInstanceAs (Decidable (_ ≠ _))

instance RenewalArrives.decidable (pool : Pool AuthWorld AuthProc) :
    DecidablePred (RenewalArrives pool)
  | .arrive _ => .isTrue trivial
  | .occur _ => .isTrue trivial
  | .advance index choice => by
    unfold RenewalArrives
    dsimp only
    split <;> infer_instance

/-- The browser's cookie runs out no earlier than the row, up to one second. -/
def CookieLasts (hashToken : String → String) (token : String) (world : AuthWorld) : Prop :=
  ∀ cookie ∈ world.cookie, ∀ session ∈ world.table, session.tokenHash = hashToken token →
    session.expiresAt.parse ≤ cookie.expires + second

/-! ### What one step of a request does to the row and the cookie -/

/-- The request a process works for, until it is answered. -/
def AuthProc.request? : AuthProc → Option AuthRequest
  | .reading request | .sampling request _ | .deciding request _ _ | .handling request _ =>
    some request
  | .responding _ _ | .answered => none

/-- A step keeps the clock and the request; a clock reading it takes is the clock's. -/
theorem serveAuth_frame {hashToken : String → String} {world after : AuthWorld}
    {proc next : AuthProc} {choice : AuthChoice}
    (stepped : serveAuth hashToken world proc choice = some (after, next)) :
    after.now = world.now ∧ (∀ request ∈ next.request?, proc.request? = some request) ∧
      ∀ request session now, next = .deciding request session now → now = world.now := by
  cases proc with
  | reading request =>
    simp only [serveAuth] at stepped
    repeat' split at stepped
    all_goals cases stepped
    all_goals simp [AuthProc.request?]
  | sampling request session =>
    cases stepped
    simp [AuthProc.request?]
  | deciding request session now =>
    simp only [serveAuth] at stepped
    repeat' split at stepped
    all_goals cases stepped
    all_goals simp [AuthProc.request?]
  | handling request slid =>
    cases choice <;> simp only [serveAuth, handle] at stepped
    all_goals split at stepped
    all_goals cases stepped
    all_goals simp [AuthProc.request?]
  | responding response header =>
    cases stepped
    simp [AuthProc.request?]
  | answered => cases stepped

/-- The response of a handler keeps the browser's cookie for now, at most deletes rows, and
unless it is a 101 carries a cookie when the expiry slid. -/
theorem handle_cases {hashToken : String → String} {world after : AuthWorld}
    {request : AuthRequest} {slid : Bool} {next : AuthProc} {choice : AuthChoice}
    (stepped : handle hashToken world request slid choice = some (after, next)) :
    ∃ response header, next = .responding response header ∧ after.cookie = world.cookie ∧
      after.table ⊆ world.table ∧ (choice ≠ .upgrades → slid = true →
        request.explicitToken = "" → header ≠ .absent) := by
  unfold handle at stepped
  split at stepped
  · split at stepped <;> cases stepped
    exact ⟨_, _, rfl, rfl, List.Subset.refl _, fun refused => absurd rfl refused⟩
  · split at stepped <;> cases stepped
    · refine ⟨_, _, rfl, rfl, ?_, fun _ _ _ => by decide⟩
      dsimp only
      split
      · exact List.Subset.refl _
      · exact AuthSessions.deleteAuthSession_subset _ _
    · refine ⟨_, _, rfl, rfl, List.Subset.refl _, fun _ slid own => ?_⟩
      simp [AuthRequest.renewal, slid, own]

/-- What a step does to the row and the cookie: it leaves both or deletes the row, it slides
the row, it hands a slid request's response to the network, or a response arrives. -/
theorem serveAuth_cases {hashToken : String → String} {world after : AuthWorld}
    {proc next : AuthProc} {choice : AuthChoice}
    (stepped : serveAuth hashToken world proc choice = some (after, next)) :
    (proc.carriesCookie = false ∧ after.cookie = world.cookie ∧ after.table ⊆ world.table) ∨
    (∃ request session now, proc = .deciding request session now ∧
      after = { world with
        table := world.table.touchAuthSession (hashToken request.tokenFromRequest)
          (now + sessionTTL) } ∧ next = .handling request true) ∨
    (∃ request response header, proc = .handling request true ∧
      next = .responding response header ∧ after.cookie = world.cookie ∧
      after.table ⊆ world.table ∧
      (choice ≠ .upgrades → request.explicitToken = "" → header ≠ .absent)) ∨
    (∃ response header, proc = .responding response header ∧ next = .answered ∧
      after = { world with cookie := header.receive world.cookie world.now }) := by
  cases proc with
  | reading request =>
    simp only [serveAuth] at stepped
    repeat' split at stepped
    all_goals cases stepped
    all_goals exact .inl ⟨rfl, rfl, List.Subset.refl _⟩
  | sampling request session =>
    cases stepped
    exact .inl ⟨rfl, rfl, List.Subset.refl _⟩
  | deciding request session now =>
    simp only [serveAuth] at stepped
    split at stepped
    · cases stepped
      refine .inl ⟨rfl, rfl, ?_⟩
      dsimp only
      split
      · exact List.Subset.refl _
      · exact AuthSessions.deleteAuthSession_subset _ _
    · split at stepped
      · split at stepped
        · cases stepped
          exact .inl ⟨rfl, rfl, List.Subset.refl _⟩
        · cases stepped
          exact .inr (.inl ⟨request, session, now, rfl, rfl, rfl⟩)
      · cases stepped
        exact .inl ⟨rfl, rfl, List.Subset.refl _⟩
  | handling request slid =>
    obtain ⟨response, header, rfl, cookie, table, renewed⟩ := handle_cases stepped
    cases slid with
    | false => exact .inl ⟨rfl, cookie, table⟩
    | true => exact .inr (.inr (.inl ⟨request, response, header, rfl, rfl, cookie, table,
        fun upgraded => renewed upgraded rfl⟩))
  | responding response header =>
    cases stepped
    exact .inr (.inr (.inr ⟨response, header, rfl, rfl, rfl⟩))
  | answered => cases stepped

/-! ### The invariant -/

/-- No instant in the pool lies ahead of the clock, the row expires at most a full TTL from
now, and unless a renewed cookie is still on its way the browser's copy is recent enough. -/
structure CookieInvariant (hashToken : String → String) (token : String)
    (pool : Pool AuthWorld AuthProc) : Prop where
  sampled : ∀ request session now, .deciding request session now ∈ pool.procs →
    now ≤ pool.world.now
  requests : ∀ proc ∈ pool.procs, ∀ request ∈ proc.request?, request.explicitToken = ""
  row : ∀ session ∈ pool.world.table, session.tokenHash = hashToken token →
    session.expiresAt.parse ≤ pool.world.now + sessionTTL
  cookie : (∃ (index : Nat) (proc : AuthProc), pool.procs[index]? = some proc ∧
      proc.carriesCookie = true) ∨ CookieLasts hashToken token pool.world

variable {hashToken : String → String} {token : String}

/-- Fewer rows and the same cookie keep the comparison. -/
theorem CookieLasts.of_subset {world after : AuthWorld}
    (lasts : CookieLasts hashToken token world) (cookie : after.cookie = world.cookie)
    (table : after.table ⊆ world.table) : CookieLasts hashToken token after := by
  intro held present session member same
  exact lasts held (cookie ▸ present) session (table member) same

/-- Right after any `Set-Cookie` arrived, the browser's copy is recent enough. -/
theorem cookieLasts_receive {world : AuthWorld} {header : SetCookie} (carried : header ≠ .absent)
    (row : ∀ session ∈ world.table, session.tokenHash = hashToken token →
      session.expiresAt.parse ≤ world.now + sessionTTL) :
    CookieLasts hashToken token
      { world with cookie := header.receive world.cookie world.now } := by
  intro held present session member same
  cases header with
  | absent => exact absurd rfl carried
  | removal => cases present
  | sessionCookie fresh =>
    cases present
    have bound := row session member same
    simp only [second]
    omega

/-- A cookie under way stays under way when another process steps. -/
theorem carried_set {procs : List AuthProc} {index other : Nat} {proc next : AuthProc}
    (different : other ≠ index) (present : procs[other]? = some proc)
    (carries : proc.carriesCookie = true) :
    ∃ (place : Nat) (carrier : AuthProc), (procs.set index next)[place]? = some carrier ∧
      carrier.carriesCookie = true :=
  ⟨other, proc, by rwa [List.getElem?_set_ne (Ne.symm different)], carries⟩

/-- The process that stepped now carries a cookie. -/
theorem carried_self {procs : List AuthProc} {index : Nat} {proc next : AuthProc}
    (present : procs[index]? = some proc) (carries : next.carriesCookie = true) :
    ∃ (place : Nat) (carrier : AuthProc), (procs.set index next)[place]? = some carrier ∧
      carrier.carriesCookie = true := by
  obtain ⟨bound, -⟩ := List.getElem?_eq_some_iff.mp present
  exact ⟨index, next, List.getElem?_set_self bound, carries⟩

/-- An arriving response leaves a recent copy: a cookie it carries is a full TTL from now, and
a response without one overtakes no renewal. -/
theorem CookieInvariant.received {pool : Pool AuthWorld AuthProc} {index : Nat}
    {choice : AuthChoice} {response : AuthResponse} {header : SetCookie}
    (invariant : CookieInvariant hashToken token pool)
    (present : pool.procs[index]? = some (.responding response header))
    (arrives : RenewalArrives pool (.advance index choice)) :
    CookieLasts hashToken token
      { pool.world with cookie := header.receive pool.world.cookie pool.world.now } := by
  by_cases carried : header = .absent
  · subst carried
    rcases invariant.cookie with ⟨other, carrier, found, carries⟩ | lasts
    · have different : other ≠ index := by
        rintro rfl
        rw [present, Option.some.injEq] at found
        rw [← found] at carries
        cases carries
      have overtaken : ∀ other ∈ pool.procs.eraseIdx index, other.carriesCookie = false := by
        simpa only [RenewalArrives, present] using arrives
      have waiting := overtaken carrier
        (List.mem_eraseIdx_iff_getElem?.mpr ⟨other, different, found⟩)
      rw [waiting] at carries
      exact absurd carries (by decide)
    · exact lasts
  · exact cookieLasts_receive carried invariant.row

theorem CookieInvariant.advance {pool next : Pool AuthWorld AuthProc} {index : Nat}
    {choice : AuthChoice} (invariant : CookieInvariant hashToken token pool)
    (arrives : RenewalArrives pool (.advance index choice))
    (taken : (authMachine hashToken).next pool (.advance index choice) = some next) :
    CookieInvariant hashToken token next := by
  obtain ⟨proc, world, after, present, stepped, rfl⟩ := Machine.next_advance taken
  obtain ⟨clock, request, sampled⟩ := serveAuth_frame stepped
  have member := List.mem_of_getElem? present
  refine ⟨?_, ?_, ?_, ?_⟩
  · intro deciding session now found
    rw [show _ = pool.world.now from clock]
    rcases List.mem_or_eq_of_mem_set found with old | rfl
    · exact invariant.sampled deciding session now old
    · exact le_of_eq (sampled deciding session now rfl)
  · intro other found served serves
    rcases List.mem_or_eq_of_mem_set found with old | rfl
    · exact invariant.requests other old served serves
    · exact invariant.requests proc member served (request served serves)
  · intro session found same
    rw [show _ = pool.world.now from clock]
    rcases serveAuth_cases stepped with ⟨-, -, table⟩ | ⟨deciding, sess, now, rfl, rfl, -⟩ |
      ⟨_, _, _, -, -, -, table, -⟩ | ⟨_, _, -, -, rfl⟩
    · exact invariant.row session (table found) same
    · rcases AuthSessions.mem_touchAuthSession found with ⟨-, expires⟩ | ⟨-, old⟩
      · have early := invariant.sampled deciding sess now member
        have rounded := Rfc3339.parse_format_le (now + sessionTTL)
        rw [expires]
        omega
      · exact invariant.row session old same
    · exact invariant.row session (table found) same
    · exact invariant.row session found same
  · rcases serveAuth_cases stepped with ⟨idle, cookie, table⟩ |
      ⟨deciding, sess, now, rfl, rfl, rfl⟩ |
      ⟨served, response, header, rfl, rfl, -, -, renewed⟩ | ⟨response, header, rfl, rfl, rfl⟩
    · rcases invariant.cookie with ⟨other, carrier, found, carries⟩ | lasts
      · have different : other ≠ index := by
          rintro rfl
          rw [present, Option.some.injEq] at found
          rw [found, carries] at idle
          exact absurd idle (by decide)
        exact .inl (carried_set different found carries)
      · exact .inr (lasts.of_subset cookie table)
    · exact .inl (carried_self present rfl)
    · have upgrade : choice ≠ .upgrades := by simpa only [RenewalArrives, present] using arrives
      have carried := renewed upgrade (invariant.requests _ member served rfl)
      exact .inl (carried_self present (by simpa [AuthProc.carriesCookie] using carried))
    · exact .inr (invariant.received present arrives)

theorem CookieInvariant.arrive {pool : Pool AuthWorld AuthProc} {request : AuthRequest}
    (invariant : CookieInvariant hashToken token pool)
    (only : CookieOnly hashToken token (.arrive request)) :
    CookieInvariant hashToken token { pool with procs := pool.procs ++ [.reading request] } := by
  refine ⟨?_, ?_, invariant.row, ?_⟩
  · intro deciding session now found
    rcases List.mem_append.mp found with old | new
    · exact invariant.sampled deciding session now old
    · cases List.mem_singleton.mp new
  · intro proc found served serves
    rcases List.mem_append.mp found with old | new
    · exact invariant.requests proc old served serves
    · cases List.mem_singleton.mp new
      cases serves
      exact only.1
  · refine invariant.cookie.imp_left ?_
    rintro ⟨index, proc, found, carries⟩
    exact ⟨index, proc, getElem?_concat_left found, carries⟩

theorem CookieInvariant.occur {pool : Pool AuthWorld AuthProc} {event : AuthEvent}
    {world : AuthWorld} (invariant : CookieInvariant hashToken token pool)
    (only : CookieOnly hashToken token (.occur event))
    (occurred : occurAuth pool.world event = some world) :
    CookieInvariant hashToken token { pool with world } := by
  obtain ⟨sampled, requests, row, cookie⟩ := invariant
  cases event with
  | wait duration =>
    cases occurred
    refine ⟨fun request session now found => ?_, requests, fun session found same => ?_, cookie⟩
    · have early := sampled request session now found
      dsimp only
      omega
    · have bound := row session found same
      dsimp only
      omega
  | sweep now =>
    simp only [occurAuth] at occurred
    split at occurred <;> cases occurred
    have fewer := AuthSessions.deleteExpiredAuthSessions_subset pool.world.table now
    exact ⟨sampled, requests, fun session found => row session (fewer found),
      cookie.imp_right fun lasts => lasts.of_subset rfl fewer⟩
  | revoke tokenHash =>
    cases occurred
    have fewer := AuthSessions.deleteAuthSession_subset pool.world.table tokenHash
    exact ⟨sampled, requests, fun session found => row session (fewer found),
      cookie.imp_right fun lasts => lasts.of_subset rfl fewer⟩
  | create fresh =>
    simp only [occurAuth] at occurred
    split at occurred <;> cases occurred
    have old : ∀ session ∈ pool.world.table ++ [fresh], session.tokenHash = hashToken token →
        session ∈ pool.world.table := by
      intro session found same
      rcases List.mem_append.mp found with present | new
      · exact present
      · cases List.mem_singleton.mp new
        exact absurd same only
    exact ⟨sampled, requests, fun session found same => row session (old session found same) same,
      cookie.imp_right fun lasts held present session found same =>
        lasts held present session (old session found same) same⟩

theorem cookieInvariant_afterLogin (userAgent : String) {signedIn arrived : Int}
    {others : AuthSessions} (order : signedIn ≤ arrived)
    (unique : ∀ other ∈ others, other.tokenHash ≠ hashToken token) :
    CookieInvariant hashToken token
      (afterLogin hashToken token userAgent signedIn arrived others) := by
  have rounded := Rfc3339.parse_format_le (signedIn + sessionTTL)
  have row : ∀ session ∈ (afterLogin hashToken token userAgent signedIn arrived others).world.table,
      session.tokenHash = hashToken token → session.expiresAt.parse ≤ arrived + sessionTTL := by
    intro session found same
    rcases List.mem_cons.mp found with rfl | other
    · dsimp only
      omega
    · exact absurd same (unique session other)
  refine ⟨by simp [afterLogin], by simp [afterLogin], row, .inr ?_⟩
  intro held present session found same
  cases present
  have bound := row session found same
  simp only [second]
  omega

/-! ### The cookie and the session -/

/-- After every response the browser's cookie runs out no earlier than the session row, up to
one second, in every run in which renewals reach the browser. -/
theorem cookie_outlives_session (hashToken : String → String) (token userAgent : String)
    (signedIn arrived : Int) (others : AuthSessions) (order : signedIn ≤ arrived)
    (unique : ∀ other ∈ others, other.tokenHash ≠ hashToken token)
    (moves : List (Move AuthRequest AuthChoice AuthEvent)) (pool final : Pool AuthWorld AuthProc)
    (run : Run (authMachine hashToken).next
      (fun pool move => CookieOnly hashToken token move ∧ RenewalArrives pool move)
      (afterLogin hashToken token userAgent signedIn arrived others) moves pool)
    (index : Nat) (choice : AuthChoice) (response : AuthResponse) (header : SetCookie)
    (responding : pool.procs[index]? = some (.responding response header))
    (arrives : RenewalArrives pool (.advance index choice))
    (delivered : (authMachine hashToken).next pool (.advance index choice) = some final) :
    CookieLasts hashToken token final.world := by
  have invariant : CookieInvariant hashToken token pool := by
    refine run.invariant (CookieInvariant hashToken token)
      (cookieInvariant_afterLogin userAgent order unique) ?_
    intro state move next holds permitted taken
    cases move with
    | arrive request =>
      cases taken
      exact holds.arrive permitted.1
    | advance index choice => exact holds.advance permitted.2 taken
    | occur event =>
      obtain ⟨world, occurred, rfl⟩ := Machine.next_occur taken
      exact holds.occur permitted.1 occurred
  obtain ⟨proc, world, after, present, stepped, rfl⟩ := Machine.next_advance delivered
  cases responding.symm.trans present
  cases stepped
  exact invariant.received responding arrives

/-- A request of the browser that attaches its cookie and nothing else. -/
def cookieRequest (route : Route) : AuthRequest :=
  { route, explicitToken := "", cookieToken := "token" }

/-- One request two days after the login, up to the arrival of its response. -/
def requestAfterTwoDays (route : Route) (answer : AuthChoice) :
    List (Move AuthRequest AuthChoice AuthEvent) :=
  [.occur (.wait (2 * 24 * hour).toNat), .arrive (cookieRequest route), .advance 0 .ok,
    .advance 0 .ok, .advance 0 .ok, .advance 0 answer]

/-- An accepted upgrade of the events socket two days after the login slides the row to day 32
while the browser keeps its cookie to day 30. -/
theorem upgrade_outlives_cookie :
    ¬ ∀ (hashToken : String → String) (token userAgent : String) (signedIn arrived : Int)
        (moves : List (Move AuthRequest AuthChoice AuthEvent))
        (pool final : Pool AuthWorld AuthProc) (index : Nat) (choice : AuthChoice)
        (response : AuthResponse) (header : SetCookie),
        signedIn ≤ arrived →
        Run (authMachine hashToken).next (fun _ move => CookieOnly hashToken token move)
          (afterLogin hashToken token userAgent signedIn arrived []) moves pool →
        pool.procs[index]? = some (.responding response header) →
        (authMachine hashToken).next pool (.advance index choice) = some final →
        CookieLasts hashToken token final.world := by
  intro always
  have lasts := always id "token" "browser" 0 0 (requestAfterTwoDays .events .upgrades) _ _ 0 .ok
    _ _ (by decide) (Run.of_exec rfl (by decide)) rfl rfl
  exact absurd (lasts _ rfl _ (List.mem_singleton.mpr rfl) rfl) (by decide)

/-- A plain request two days after the login carries the renewed cookie. -/
theorem plain_request_renews_cookie :
    ∃ pool final, exec (authMachine id).next (afterLogin id "token" "browser" 0 0 [])
        (requestAfterTwoDays .plain .ok) = some pool ∧
      (authMachine id).next pool (.advance 0 .ok) = some final ∧
      CookieLasts id "token" final.world := by
  refine ⟨_, _, rfl, rfl, ?_⟩
  exact cookie_outlives_session id "token" "browser" 0 0 [] (by decide) (by decide)
    (requestAfterTwoDays .plain .ok) _ _ (Run.of_exec rfl (by decide)) 0 .ok _ _ rfl (by decide) rfl

end Multimux
