/-
This file is about the deletions that expiry causes. A sweep deletes what the
stored texts say has expired. A request that finds its own row expired deletes
by the hash alone, whatever the row says by then: a renewal that lands between
its read and its delete is lost. All deletions that any state of a run permits
are of expired rows exactly as long as no such renewal is made.
-/

import Multimux.CookieLifetime
import Multimux.Calendar

namespace Multimux

/-! ### Expiries as text -/

/-- The text of a column. -/
def Rfc3339.text (column : Rfc3339) : List Char :=
  dateTimeText (column.seconds + epochSeconds).toNat ++ ['Z']

/-- The column is of one of the years 0 to 9999, which the format writes in four digits. -/
def Rfc3339.InEra (column : Rfc3339) : Prop :=
  0 ≤ column.seconds + epochSeconds ∧ column.seconds + epochSeconds < eraDays * 86400

theorem Rfc3339.sortsBefore_text {column other : Rfc3339} (era : column.InEra)
    (otherEra : other.InEra) :
    sortsBefore column.text other.text = true ↔ column.seconds ≤ other.seconds := by
  obtain ⟨begun, ended⟩ := era
  obtain ⟨otherBegun, otherEnded⟩ := otherEra
  simp only [epochSeconds, eraDays] at begun ended otherBegun otherEnded
  simp only [text, epochSeconds]
  rw [sortsBefore_dateTimeText_append (by simp only [eraDays]; omega)
    (by simp only [eraDays]; omega)]
  simp only [sortsBefore_refl, and_true]
  omega

/-- `WHERE expires_at < ?` on the texts deletes what has expired. -/
theorem AuthSessions.deleteExpiredAuthSessions_text {table : AuthSessions} {now : Int}
    (era : ∀ session ∈ table, session.expiresAt.InEra) (nowEra : (Rfc3339.format now).InEra) :
    (table.filter fun session =>
        sortsBefore (Rfc3339.format now).text session.expiresAt.text) =
      table.deleteExpiredAuthSessions now := by
  refine List.filter_congr fun session member => ?_
  rw [Bool.eq_iff_iff, Rfc3339.sortsBefore_text nowEra (era session member), decide_eq_true_eq,
    Int.not_lt]

/-! ### Deletions for expiry -/

/-- The token whose row a request is about to delete, and the reading that found it expired. -/
def AuthProc.expiring : AuthProc → Option (String × Int)
  | .deciding request session now =>
    if session.expiresAt.parse < now then some (request.tokenFromRequest, now) else none
  | _ => none

/-- The reading of the clock that a move deletes rows by. -/
def expiryReading (pool : Pool AuthWorld AuthProc) :
    Move AuthRequest AuthChoice AuthEvent → Option Int
  | .advance index _ =>
    (pool.procs[index]?).bind fun proc => proc.expiring.map Prod.snd
  | .occur (.sweep sampled) => some sampled
  | _ => none

section Expiry

variable (hashToken : String → String)

/-- Whatever deletes rows for expiry next deletes expired ones only. -/
def DeletesOnlyExpired (pool : Pool AuthWorld AuthProc) : Prop :=
  ∀ move next, (authMachine hashToken).next pool move = some next →
    ∀ sampled ∈ expiryReading pool move, ∀ session ∈ pool.world.table,
      session ∉ next.world.table → session.expiresAt.parse < sampled

/-- The rows under a hash have expired at an instant. -/
def AuthWorld.Expired (world : AuthWorld) (tokenHash : String) (now : Int) : Prop :=
  ∀ session ∈ world.table, session.tokenHash = tokenHash → session.expiresAt.parse < now

/-- Every request that is about to delete a row would delete an expired one. -/
def ExpiringExpired (pool : Pool AuthWorld AuthProc) : Prop :=
  ∀ proc ∈ pool.procs, ∀ expiring ∈ proc.expiring,
    pool.world.Expired (hashToken expiring.1) expiring.2

/-- The hash and the expiry that a move stores: a touch that finds its row, or a new row. -/
def storedBy (pool : Pool AuthWorld AuthProc) :
    Move AuthRequest AuthChoice AuthEvent → Option (String × Int)
  | .advance index choice =>
    match pool.procs[index]? with
    | some (.deciding request session now) =>
      if now ≤ session.expiresAt.parse ∧ session.expiresAt.parse - now < slideThreshold ∧
          choice ≠ .fails ∧
          (pool.world.table.getAuthSession (hashToken request.tokenFromRequest)).isSome then
        some (hashToken request.tokenFromRequest, (Rfc3339.format (now + sessionTTL)).parse)
      else none
    | _ => none
  | .occur (.create session) =>
    if (pool.world.table.getAuthSession session.tokenHash).isSome then none
    else some (session.tokenHash, session.expiresAt.parse)
  | _ => none

/-- A move renews no row behind a request's back: it stores no expiry that has yet to pass under
the hash of a request that is about to delete, and a reading past the expiry that the request
read is not taken while the stored row has been renewed. -/
structure Unrenewed (pool : Pool AuthWorld AuthProc)
    (move : Move AuthRequest AuthChoice AuthEvent) : Prop where
  stores : ∀ stored ∈ storedBy hashToken pool move, ∀ proc ∈ pool.procs,
    ∀ expiring ∈ proc.expiring, hashToken expiring.1 = stored.1 → stored.2 < expiring.2
  samples : ∀ (index : Nat) choice request session, move = .advance index choice →
    pool.procs[index]? = some (.sampling request session) →
    session.expiresAt.parse < pool.world.now →
    pool.world.Expired (hashToken request.tokenFromRequest) pool.world.now

variable {hashToken}

/-- A sweep deletes only what has expired. -/
theorem parse_lt_of_swept {table : AuthSessions} {session : AuthSession} {sampled : Int}
    (member : session ∈ table) (swept : session ∉ table.deleteExpiredAuthSessions sampled) :
    session.expiresAt.parse < sampled := by
  have earlier : session.expiresAt.seconds < (Rfc3339.format sampled).seconds := by
    by_contra stays
    exact swept (List.mem_filter.mpr ⟨member, decide_eq_true stays⟩)
  have rounded := Rfc3339.parse_format_le sampled
  simp only [Rfc3339.parse, second] at rounded ⊢
  omega

/-- A request that is about to delete, taken apart. -/
theorem AuthProc.expiring_eq_some {proc : AuthProc} {token : String} {now : Int}
    (expires : proc.expiring = some (token, now)) :
    ∃ request session, proc = .deciding request session now ∧
      token = request.tokenFromRequest ∧ session.expiresAt.parse < now := by
  cases proc with
  | deciding request session sampled =>
    simp only [expiring] at expires
    split at expires
    · rename_i passed
      cases expires
      exact ⟨request, session, rfl, rfl, passed⟩
    · cases expires
  | _ => cases expires

/-- The deletions that a state permits are right exactly if those of its requests are. -/
theorem deletesOnlyExpired_iff (pool : Pool AuthWorld AuthProc) :
    DeletesOnlyExpired hashToken pool ↔ ExpiringExpired hashToken pool := by
  constructor
  · rintro only proc member ⟨token, now⟩ expires session present same
    obtain ⟨request, read, rfl, rfl, passed⟩ := AuthProc.expiring_eq_some expires
    obtain ⟨index, found⟩ := List.getElem?_of_mem member
    refine only (.advance index .ok) _ (by
      simp only [Machine.next, found, authMachine, serveAuth, if_pos passed]; rfl) now ?_ session
      present ?_
    · rw [expiryReading, found, Option.bind_some, expires]
      rfl
    · intro kept
      exact of_decide_eq_true (List.mem_filter.mp kept).2 same
  · intro expired move next taken sampled reading session present gone
    cases move with
    | arrive => cases reading
    | advance index choice =>
      obtain ⟨proc, world, after, found, stepped, rfl⟩ := Machine.next_advance taken
      rw [expiryReading, found, Option.bind_some] at reading
      obtain ⟨⟨token, now⟩, expires, rfl⟩ := Option.map_eq_some_iff.mp reading
      refine expired proc (List.mem_of_getElem? found) _ expires session present ?_
      obtain ⟨request, read, rfl, rfl, passed⟩ := AuthProc.expiring_eq_some expires
      simp only [authMachine, serveAuth, if_pos passed] at stepped
      cases stepped
      by_contra other
      refine gone ?_
      dsimp only
      split
      · exact present
      · exact List.mem_filter.mpr ⟨present, decide_eq_true other⟩
    | occur event =>
      cases event with
      | sweep at_ =>
        cases reading
        obtain ⟨world, occurred, rfl⟩ := Machine.next_occur taken
        simp only [authMachine, occurAuth] at occurred
        split at occurred
        · cases occurred
          exact parse_lt_of_swept present gone
        · cases occurred
      | _ => cases reading

/-! ### One step -/

theorem AuthWorld.Expired.of_subset {world after : AuthWorld} {tokenHash : String} {now : Int}
    (expired : world.Expired tokenHash now) (table : after.table ⊆ world.table) :
    after.Expired tokenHash now :=
  fun session member => expired session (table member)

/-- A step that at most deletes rows and does not arm its request. -/
theorem quiet_step {pool : Pool AuthWorld AuthProc} {index : Nat} {choice : AuthChoice}
    {proc after : AuthProc} {world : AuthWorld} (expired : ExpiringExpired hashToken pool)
    (found : pool.procs[index]? = some proc) (table : world.table ⊆ pool.world.table)
    (unarmed : after.expiring = none)
    (unstored : storedBy hashToken pool (.advance index choice) = none)
    (unsampled : ∀ request session, proc ≠ .sampling request session) :
    ExpiringExpired hashToken { world, procs := pool.procs.set index after } ↔
      Unrenewed hashToken pool (.advance index choice) := by
  refine iff_of_true ?_ ⟨?_, ?_⟩
  · intro other member expiring expires
    rcases List.mem_or_eq_of_mem_set member with old | rfl
    · exact (expired other old expiring expires).of_subset table
    · rw [unarmed] at expires
      cases expires
  · intro stored stores
    rw [unstored] at stores
    cases stores
  · rintro place chosen request session ⟨⟩ there
    exact absurd (Option.some.inj (found.symm.trans there)) (unsampled request session)

/-- A reading of the clock keeps the requests right exactly if it is not taken behind a
renewal. -/
theorem sampling_step {pool : Pool AuthWorld AuthProc} {index : Nat} {choice : AuthChoice}
    {request : AuthRequest} {session : AuthSession} (expired : ExpiringExpired hashToken pool)
    (found : pool.procs[index]? = some (.sampling request session)) :
    ExpiringExpired hashToken { pool with
        procs := pool.procs.set index (.deciding request session pool.world.now) } ↔
      Unrenewed hashToken pool (.advance index choice) := by
  constructor
  · intro after
    refine ⟨?_, ?_⟩
    · intro stored stores
      simp only [storedBy, found] at stores
      cases stores
    · rintro place chosen other read ⟨⟩ there passed
      cases found.symm.trans there
      obtain ⟨bound, -⟩ := List.getElem?_eq_some_iff.mp found
      exact after _ (List.mem_set bound _) (request.tokenFromRequest, pool.world.now)
        (if_pos passed)
  · rintro ⟨-, samples⟩ other member expiring expires
    rcases List.mem_or_eq_of_mem_set member with old | rfl
    · exact expired other old expiring expires
    · simp only [AuthProc.expiring] at expires
      split at expires
      · rename_i passed
        cases expires
        exact samples index choice request session rfl found passed
      · cases expires

/-- A touch keeps the requests right exactly if no other is about to delete the row. -/
theorem touching_step {pool : Pool AuthWorld AuthProc} {index : Nat} {choice : AuthChoice}
    {request : AuthRequest} {session : AuthSession} {now : Int}
    (expired : ExpiringExpired hashToken pool)
    (found : pool.procs[index]? = some (.deciding request session now))
    (running : now ≤ session.expiresAt.parse)
    (slides : session.expiresAt.parse - now < slideThreshold) (works : choice ≠ .fails) :
    ExpiringExpired hashToken
        { world := { pool.world with
            table := pool.world.table.touchAuthSession (hashToken request.tokenFromRequest)
              (now + sessionTTL) },
          procs := pool.procs.set index (.handling request true) } ↔
      Unrenewed hashToken pool (.advance index choice) := by
  have unarmed : (AuthProc.deciding request session now).expiring = none :=
    if_neg (Int.not_lt.mpr running)
  cases held : pool.world.table.getAuthSession (hashToken request.tokenFromRequest) with
  | none =>
    refine quiet_step expired found ?_ rfl ?_ (by rintro _ _ ⟨⟩)
    · intro row member
      obtain ⟨old, present, rfl⟩ := List.mem_map.mp member
      have other : ¬ old.tokenHash = hashToken request.tokenFromRequest := by
        simpa using List.find?_eq_none.mp held old present
      rw [if_neg other]
      exact present
    · simp [storedBy, found, held]
  | some row =>
    have member : row ∈ pool.world.table := List.mem_of_find?_eq_some held
    have hash : row.tokenHash = hashToken request.tokenFromRequest := by
      simpa using List.find?_some held
    have stores : storedBy hashToken pool (.advance index choice) =
        some (hashToken request.tokenFromRequest, (Rfc3339.format (now + sessionTTL)).parse) := by
      simp [storedBy, found, held, running, slides, works]
    constructor
    · intro after
      refine ⟨?_, ?_⟩
      · intro stored renewal proc present expiring expires same
        rw [stores] at renewal
        cases renewal
        obtain ⟨place, there⟩ := List.getElem?_of_mem present
        have different : index ≠ place := by
          rintro rfl
          cases found.symm.trans there
          rw [unarmed] at expires
          cases expires
        have stays : (pool.procs.set index (.handling request true))[place]? = some proc := by
          rw [List.getElem?_set_ne different, there]
        refine after proc (List.mem_of_getElem? stays) expiring expires
          { row with expiresAt := .format (now + sessionTTL) } ?_ (hash.trans same.symm)
        exact List.mem_map.mpr ⟨row, member, if_pos hash⟩
      · rintro place chosen other read ⟨⟩ there
        cases found.symm.trans there
    · rintro ⟨fresh, -⟩ proc present expiring expires touched among same
      rcases List.mem_or_eq_of_mem_set present with old | rfl
      · rcases AuthSessions.mem_touchAuthSession among with ⟨own, renewed⟩ | ⟨-, before⟩
        · rw [renewed]
          exact fresh _ stores proc old expiring expires (same.symm.trans own)
        · exact expired proc old expiring expires touched before same
      · cases expires

/-- What happens beside the requests keeps them right exactly if no session is created behind a
reading. -/
theorem occur_step {pool : Pool AuthWorld AuthProc} {event : AuthEvent} {world : AuthWorld}
    (expired : ExpiringExpired hashToken pool)
    (occurred : occurAuth pool.world event = some world) :
    ExpiringExpired hashToken { pool with world } ↔ Unrenewed hashToken pool (.occur event) := by
  have smaller : world.table ⊆ pool.world.table →
      ExpiringExpired hashToken { pool with world } := fun table proc member expiring expires =>
    (expired proc member expiring expires).of_subset table
  cases event with
  | wait duration =>
    cases occurred
    exact iff_of_true (smaller (List.Subset.refl _)) ⟨by rintro _ ⟨⟩, by rintro _ _ _ _ ⟨⟩⟩
  | sweep sampled =>
    simp only [occurAuth] at occurred
    split at occurred
    · cases occurred
      exact iff_of_true (smaller (AuthSessions.deleteExpiredAuthSessions_subset _ _))
        ⟨by rintro _ ⟨⟩, by rintro _ _ _ _ ⟨⟩⟩
    · cases occurred
  | revoke tokenHash =>
    cases occurred
    exact iff_of_true (smaller (AuthSessions.deleteAuthSession_subset _ _))
      ⟨by rintro _ ⟨⟩, by rintro _ _ _ _ ⟨⟩⟩
  | create session =>
    simp only [occurAuth] at occurred
    split at occurred
    · cases occurred
    · rename_i fresh
      cases occurred
      have stores : storedBy hashToken pool (.occur (.create session)) =
          some (session.tokenHash, session.expiresAt.parse) := if_neg fresh
      constructor
      · intro after
        refine ⟨?_, by rintro _ _ _ _ ⟨⟩⟩
        intro stored creation proc member expiring expires same
        rw [stores] at creation
        cases creation
        exact after proc member expiring expires session
          (List.mem_append_right _ (List.mem_singleton_self _)) same.symm
      · rintro ⟨clear, -⟩ proc member expiring expires row among same
        rcases List.mem_append.mp among with old | new
        · exact expired proc member expiring expires row old same
        · obtain rfl := List.mem_singleton.mp new
          exact clear _ stores proc member expiring expires same.symm

/-- A move keeps the requests right exactly if it renews nothing behind their backs. -/
theorem expiringExpired_step {pool next : Pool AuthWorld AuthProc}
    {move : Move AuthRequest AuthChoice AuthEvent} (expired : ExpiringExpired hashToken pool)
    (taken : (authMachine hashToken).next pool move = some next) :
    ExpiringExpired hashToken next ↔ Unrenewed hashToken pool move := by
  cases move with
  | arrive request =>
    cases taken
    refine iff_of_true ?_ ⟨by rintro _ ⟨⟩, by rintro _ _ _ _ ⟨⟩⟩
    intro proc member expiring expires
    rcases List.mem_append.mp member with old | new
    · exact expired proc old expiring expires
    · obtain rfl := List.mem_singleton.mp new
      cases expires
  | advance index choice =>
    obtain ⟨proc, world, after, found, stepped, rfl⟩ := Machine.next_advance taken
    cases proc with
    | reading request =>
      refine quiet_step expired found ?_ ?_ (by simp [storedBy, found]) (by rintro _ _ ⟨⟩)
      all_goals
        simp only [authMachine, serveAuth] at stepped
        repeat' split at stepped
        all_goals cases stepped
      any_goals rfl
      all_goals exact List.Subset.refl _
    | sampling request session =>
      cases stepped
      exact sampling_step expired found
    | deciding request session now =>
      simp only [authMachine, serveAuth] at stepped
      split at stepped
      · rename_i passed
        cases stepped
        refine quiet_step expired found ?_ rfl ?_ (by rintro _ _ ⟨⟩)
        · dsimp only
          split
          · exact List.Subset.refl _
          · exact AuthSessions.deleteAuthSession_subset _ _
        · simp [storedBy, found, Int.not_le.mpr passed]
      · rename_i running
        split at stepped
        · rename_i slides
          split at stepped
          · rename_i fails
            cases stepped
            exact quiet_step expired found (List.Subset.refl _) rfl
              (by simp [storedBy, found, fails]) (by rintro _ _ ⟨⟩)
          · rename_i works
            cases stepped
            exact touching_step expired found (Int.not_lt.mp running) slides works
        · rename_i lasts
          cases stepped
          exact quiet_step expired found (List.Subset.refl _) rfl
            (by simp [storedBy, found, lasts]) (by rintro _ _ ⟨⟩)
    | handling request slid =>
      obtain ⟨response, header, rfl, -, table, -⟩ := handle_cases stepped
      exact quiet_step expired found table rfl (by simp [storedBy, found]) (by rintro _ _ ⟨⟩)
    | responding response header =>
      cases stepped
      exact quiet_step expired found (List.Subset.refl _) rfl (by simp [storedBy, found])
        (by rintro _ _ ⟨⟩)
    | answered => cases stepped
  | occur event =>
    obtain ⟨world, occurred, rfl⟩ := Machine.next_occur taken
    exact occur_step expired occurred

end Expiry

/-! ### Runs -/

/-- A server that nobody has logged in to. -/
def nobodyLoggedIn (now : Int) : Pool AuthWorld AuthProc where
  world := { now, table := [], cookie := none }
  procs := []

/-- In every state of a run only expired rows can be deleted for expiry, exactly if no move of the
run renews a row behind the back of a request that is about to delete it. -/
theorem expiry_deletes_expired_iff (hashToken : String → String) (now : Int)
    {moves : List (Move AuthRequest AuthChoice AuthEvent)} {final : Pool AuthWorld AuthProc}
    (run : Run (authMachine hashToken).next anything (nobodyLoggedIn now) moves final) :
    (∀ before after state, moves = before ++ after →
        Run (authMachine hashToken).next anything (nobodyLoggedIn now) before state →
        DeletesOnlyExpired hashToken state) ↔
      ∀ before move after state, moves = before ++ move :: after →
        Run (authMachine hashToken).next anything (nobodyLoggedIn now) before state →
        Unrenewed hashToken state move := by
  simp only [deletesOnlyExpired_iff]
  refine run.throughout_iff (ExpiringExpired hashToken) (Unrenewed hashToken) ?_ ?_
  · rintro proc ⟨⟩
  · intro before state move next _ expired taken
    exact expiringExpired_step expired taken

/-- Two requests thirty days after the login. The first reads the clock as the session expires,
the second a nanosecond later; then the first renews the row. -/
def renewalOvertaken : List (Move AuthRequest AuthChoice AuthEvent) :=
  [.occur (.create ⟨"token", "browser", ⟨0⟩, ⟨2592000⟩⟩), .occur (.wait sessionTTL.toNat),
    .arrive (cookieRequest .plain), .arrive (cookieRequest .plain), .advance 0 .ok,
    .advance 0 .ok, .advance 1 .ok, .occur (.wait 1), .advance 1 .ok, .advance 0 .ok]

/-- The second request then deletes the row that the first has just renewed for thirty days. -/
theorem renewed_row_deleted :
    ¬ ∀ (hashToken : String → String) (now : Int)
        (moves : List (Move AuthRequest AuthChoice AuthEvent))
        (state next : Pool AuthWorld AuthProc) (move : Move AuthRequest AuthChoice AuthEvent),
        Run (authMachine hashToken).next anything (nobodyLoggedIn now) moves state →
        (authMachine hashToken).next state move = some next →
        ∀ sampled ∈ expiryReading state move, ∀ session ∈ state.world.table,
          session ∉ next.world.table → session.expiresAt.parse < sampled := by
  intro always
  have deleted := always id 0 renewalOvertaken _ _ (.advance 1 .ok) (Run.of_exec_anything rfl) rfl
    _ rfl _ (List.mem_singleton_self _) (by decide)
  exact absurd deleted (by decide)

/-- So that run renews a row behind a request's back. -/
theorem renewalOvertaken_renews :
    ¬ ∀ before move after state, renewalOvertaken = before ++ move :: after →
      Run (authMachine id).next anything (nobodyLoggedIn 0) before state →
      Unrenewed id state move := by
  intro unrenewed
  have run : Run (authMachine id).next anything (nobodyLoggedIn 0) renewalOvertaken _ :=
    Run.of_exec_anything rfl
  have only := (expiry_deletes_expired_iff id 0 run).mpr unrenewed renewalOvertaken [] _
    (List.append_nil _).symm run
  have deleted := only (.advance 1 .ok) _ rfl _ rfl _ (List.mem_singleton_self _) (by decide)
  exact absurd deleted (by decide)

end Multimux
