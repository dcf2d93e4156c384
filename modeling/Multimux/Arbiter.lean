/-
This file models the arbiter that decides which connection may size the shared
tmux window of a session. Connections hold a pointer to their session's record,
and a record may be dropped and made anew while older connections still point
to the old one, so records live on a heap. What ties the counters of a record
to the connections is proved here: in every run a record in the map counts
exactly the registered connections of its session, client by client.
-/

import Multimux.Clock
import Multimux.Runs
import Mathlib.Logic.Function.Basic

namespace Multimux

/-! ### Records and connections -/

/-- How long a session keeps its owner after that client's last connection drops. -/
def ownerGrace : Int := 30 * second

/-- How long a client counts as having a human at it. -/
def presenceWindow : Int := 5 * minute

/-- The zero value of `time.Time`. -/
def zeroTime : Int := -62135596800 * second

/-- Whether a connection claims the window by its input. -/
inductive SizePolicy
  | followInput
  | passive
  deriving DecidableEq

/-- The arbiter's record of a session. A client without an entry in `live` counts zero. -/
structure ArbSession where
  refs : Int
  live : String → Int
  ownerID : String
  ownerLeftAt : Int

/-- One connection's handle; `session` is its pointer to the record. -/
structure ArbConn where
  tmuxName : String
  clientID : String
  sizePolicy : SizePolicy
  session : Nat
  cols : UInt16
  rows : UInt16
  unregistered : Bool

/-- The arbiter with the records allocated so far and every connection it ever handed out.
`clock` is the last reading of its clock. -/
structure Arbiter where
  sessions : String → Option Nat
  lastHuman : String → Option Int
  heap : Nat → ArbSession
  allocated : Nat
  conns : List ArbConn
  clock : Int

/-- A session that nobody is connected to and nobody owns. -/
def newSession : ArbSession where
  refs := 0
  live _ := 0
  ownerID := ""
  ownerLeftAt := zeroTime

/-- An arbiter that knows no session. -/
def newArbiter (clock : Int) : Arbiter where
  sessions _ := none
  lastHuman _ := none
  heap _ := newSession
  allocated := 0
  conns := []
  clock

/-- Who owns a session, `""` for nobody. -/
def Arbiter.ownerOf (arbiter : Arbiter) (tmuxName : String) : String :=
  match arbiter.sessions tmuxName with
  | some session => (arbiter.heap session).ownerID
  | none => ""

/-- The connection is registered to the session. -/
def ArbConn.registeredTo (tmuxName : String) (conn : ArbConn) : Bool :=
  !conn.unregistered && conn.tmuxName == tmuxName

/-- The connection is registered to the session on behalf of the client. -/
def ArbConn.attaches (tmuxName clientID : String) (conn : ArbConn) : Bool :=
  conn.registeredTo tmuxName && conn.clientID == clientID

/-! ### The operations -/

/-- Write through a record's pointer. -/
def Arbiter.modify (arbiter : Arbiter) (session : Nat) (change : ArbSession → ArbSession) :
    Arbiter :=
  { arbiter with
    heap := Function.update arbiter.heap session (change (arbiter.heap session)) }

/-- Write through a connection's pointer. -/
def Arbiter.setConn (arbiter : Arbiter) (index : Nat) (conn : ArbConn) : Arbiter :=
  { arbiter with conns := arbiter.conns.set index conn }

/-- Record that a human was at the client. -/
def Arbiter.sawHuman (arbiter : Arbiter) (clientID : String) (now : Int) : Arbiter :=
  { arbiter with lastHuman := Function.update arbiter.lastHuman clientID (some now) }

/-- One more connection of the client. -/
def ArbSession.join (session : ArbSession) (clientID : String) : ArbSession :=
  { session with
    refs := session.refs + 1
    live := Function.update session.live clientID (session.live clientID + 1) }

/-- The counters without one connection of the client. -/
def ArbSession.leave (session : ArbSession) (clientID : String) (now : Int) : ArbSession :=
  let left := session.live clientID - 1
  if left ≤ 0 then
    { session with
      refs := session.refs - 1
      live := Function.update session.live clientID 0
      ownerLeftAt := if session.ownerID = clientID then now else session.ownerLeftAt }
  else
    { session with
      refs := session.refs - 1
      live := Function.update session.live clientID left }

/-- The client becomes the owner. -/
def ArbSession.claim (session : ArbSession) (clientID : String) : ArbSession :=
  { session with ownerID := clientID }

/-- The record `Register` finds for the session or makes for it. -/
def Arbiter.find (arbiter : Arbiter) (tmuxName : String) : Arbiter × Nat :=
  match arbiter.sessions tmuxName with
  | some session => (arbiter, session)
  | none => ({ arbiter with
      sessions := Function.update arbiter.sessions tmuxName (some arbiter.allocated)
      heap := Function.update arbiter.heap arbiter.allocated newSession
      allocated := arbiter.allocated + 1 }, arbiter.allocated)

/-- `Register`: the connection joins the session of its name, which is made if there is none. -/
def Arbiter.register (arbiter : Arbiter) (tmuxName clientID : String)
    (sizePolicy : SizePolicy) : Arbiter :=
  let (arbiter, session) := arbiter.find tmuxName
  { arbiter.modify session (·.join clientID) with
    conns := arbiter.conns ++
      [{ tmuxName, clientID, sizePolicy, session, cols := 0, rows := 0, unregistered := false }] }

/-- `Unregister`, which counts once, and only for the session that the name still stands for. -/
def Arbiter.unregister (arbiter : Arbiter) (index : Nat) (conn : ArbConn) (now : Int) : Arbiter :=
  if conn.unregistered then arbiter
  else
    let arbiter := arbiter.setConn index { conn with unregistered := true }
    if arbiter.sessions conn.tmuxName ≠ some conn.session then arbiter
    else arbiter.modify conn.session (·.leave conn.clientID now)

/-- `Prune`: sessions that nobody is connected to and tmux does not have, and old sightings. -/
def Arbiter.prune (arbiter : Arbiter) (alive : String → Bool) (now : Int) : Arbiter :=
  { arbiter with
    sessions := fun name => (arbiter.sessions name).filter fun session =>
      !((arbiter.heap session).refs ≤ 0 ∧ alive name = false)
    lastHuman := fun id => (arbiter.lastHuman id).filter fun seen =>
      !(seen < now - presenceWindow) }

/-- The client was seen within the presence window. -/
def Arbiter.present (arbiter : Arbiter) (clientID : String) (now : Int) : Bool :=
  match arbiter.lastHuman clientID with
  | some seen => now - seen ≤ presenceWindow
  | none => false

/-- The clock readings of one `Resize`, in the order it takes them: for the gesture of an
active resize, for the owner's absence and for the client's presence. -/
structure Readings where
  human : Int
  grace : Int
  presence : Int
  human_le : human ≤ grace
  grace_le : grace ≤ presence

/-- Whether an ordinary resize of this follow-input connection may touch the window. -/
def Arbiter.mayResize (arbiter : Arbiter) (conn : ArbConn) (readings : Readings) : Bool :=
  let session := arbiter.heap conn.session
  if session.ownerID = "" ∨ session.ownerID = conn.clientID then true
  else if 0 < session.live session.ownerID then false
  else if readings.grace - session.ownerLeftAt < ownerGrace then false
  else arbiter.present conn.clientID readings.presence

/-- The dimensions a connection asks for and the gesture of an active resize, on record. -/
def Arbiter.asked (arbiter : Arbiter) (index : Nat) (conn : ArbConn) (cols rows : UInt16)
    (active : Bool) (now : Int) : Arbiter :=
  let arbiter := arbiter.setConn index { conn with cols, rows }
  if active then arbiter.sawHuman conn.clientID now else arbiter

@[simp]
theorem Arbiter.asked_sessions (arbiter : Arbiter) (index : Nat) (conn : ArbConn)
    (cols rows : UInt16) (active : Bool) (now : Int) :
    (arbiter.asked index conn cols rows active now).sessions = arbiter.sessions := by
  unfold Arbiter.asked
  split <;> rfl

@[simp]
theorem Arbiter.asked_heap (arbiter : Arbiter) (index : Nat) (conn : ArbConn)
    (cols rows : UInt16) (active : Bool) (now : Int) :
    (arbiter.asked index conn cols rows active now).heap = arbiter.heap := by
  unfold Arbiter.asked
  split <;> rfl

/-- `Resize` up to its last step, and the argument of that step, the call `apply(allowed)`. -/
def Arbiter.resize (arbiter : Arbiter) (index : Nat) (conn : ArbConn) (cols rows : UInt16)
    (active : Bool) (readings : Readings) : Arbiter × Option Bool :=
  if conn.unregistered ∨ arbiter.sessions conn.tmuxName ≠ some conn.session then (arbiter, none)
  else
    let arbiter := arbiter.asked index conn cols rows active readings.human
    let allowed := conn.sizePolicy = .followInput ∧ arbiter.mayResize conn readings
    let prev := (arbiter.heap conn.session).ownerID
    let repeatActive := active ∧ prev = conn.clientID ∧ conn.sizePolicy = .followInput
    if active ∨ allowed then
      (arbiter.modify conn.session (·.claim conn.clientID), some !repeatActive)
    else (arbiter, some false)

/-- `ClaimInput` up to its last step, and the dimensions of that step, if it reapplies them. -/
def Arbiter.claimInput (arbiter : Arbiter) (conn : ArbConn) (now : Int) :
    Arbiter × Option (UInt16 × UInt16) :=
  if conn.unregistered ∨ arbiter.sessions conn.tmuxName ≠ some conn.session then (arbiter, none)
  else
    let arbiter := arbiter.sawHuman conn.clientID now
    if conn.sizePolicy = .passive ∨ (arbiter.heap conn.session).ownerID = conn.clientID then
      (arbiter, none)
    else
      (arbiter.modify conn.session (·.claim conn.clientID),
        if conn.cols = 0 ∨ conn.rows = 0 then none else some (conn.cols, conn.rows))

/-! ### Runs of the arbiter -/

/-- A call of the arbiter; connections are named by the order of their registration. -/
inductive ArbAction
  | register (tmuxName clientID : String) (sizePolicy : SizePolicy)
  | unregister (index : Nat) (now : Int)
  | prune (alive : String → Bool) (now : Int)
  | resize (index : Nat) (cols rows : UInt16) (active : Bool) (readings : Readings)
  | claimInput (index : Nat) (now : Int)

/-- The last step of a call, its callback: `apply(allowed)` of a resize, or the dimensions
that a claim reapplies. -/
inductive Applied
  | sized (resizeWindow : Bool)
  | reapplied (dims : UInt16 × UInt16)
  deriving DecidableEq

/-- The arbiter after the clock readings of a call. -/
def Arbiter.readClock (arbiter : Arbiter) (last : Int) : Arbiter :=
  { arbiter with clock := last }

/-- The clock does not run backwards. -/
def Arbiter.tick (arbiter : Arbiter) (first last : Int) : Option Arbiter :=
  if arbiter.clock ≤ first then some (arbiter.readClock last) else none

/-- One call of the arbiter, and the callback it ends with, if any. -/
def Arbiter.perform (arbiter : Arbiter) : ArbAction → Option (Arbiter × Option Applied)
  | .register tmuxName clientID sizePolicy =>
    some (arbiter.register tmuxName clientID sizePolicy, none)
  | .unregister index now => do
    let arbiter ← arbiter.tick now now
    let conn ← arbiter.conns[index]?
    return (arbiter.unregister index conn now, none)
  | .prune alive now => do
    let arbiter ← arbiter.tick now now
    return (arbiter.prune alive now, none)
  | .resize index cols rows active readings => do
    let arbiter ← arbiter.tick readings.human readings.presence
    let conn ← arbiter.conns[index]?
    let (arbiter, allowed) := arbiter.resize index conn cols rows active readings
    return (arbiter, allowed.map .sized)
  | .claimInput index now => do
    let arbiter ← arbiter.tick now now
    let conn ← arbiter.conns[index]?
    let (arbiter, dims) := arbiter.claimInput conn now
    return (arbiter, dims.map .reapplied)

/-- An action without what it answers. -/
def Arbiter.step (arbiter : Arbiter) (action : ArbAction) : Option Arbiter :=
  (arbiter.perform action).map Prod.fst

/-! ### What the records count -/

/-- A registered connection points to the record in the map, records are not shared, and a
record counts the registered connections of its session. -/
structure Arbiter.Consistent (arbiter : Arbiter) : Prop where
  current : ∀ conn ∈ arbiter.conns, conn.unregistered = false →
    arbiter.sessions conn.tmuxName = some conn.session
  below : ∀ name session, arbiter.sessions name = some session → session < arbiter.allocated
  unshared : ∀ first second session, arbiter.sessions first = some session →
    arbiter.sessions second = some session → first = second
  refs : ∀ name session, arbiter.sessions name = some session →
    (arbiter.heap session).refs = arbiter.conns.countP (ArbConn.registeredTo name)
  live : ∀ name session clientID, arbiter.sessions name = some session →
    (arbiter.heap session).live clientID = arbiter.conns.countP (ArbConn.attaches name clientID)

theorem ArbConn.registeredTo_iff {tmuxName : String} {conn : ArbConn} :
    conn.registeredTo tmuxName = true ↔ conn.unregistered = false ∧ conn.tmuxName = tmuxName := by
  simp [registeredTo]

theorem ArbConn.attaches_iff {tmuxName clientID : String} {conn : ArbConn} :
    conn.attaches tmuxName clientID = true ↔
      conn.registeredTo tmuxName = true ∧ conn.clientID = clientID := by
  simp [attaches]

theorem Arbiter.consistent_newArbiter (clock : Int) : (newArbiter clock).Consistent := by
  constructor <;> simp [newArbiter]

/-- A session without a record has no registered connection. -/
theorem Arbiter.Consistent.countP_eq_zero {arbiter : Arbiter} (consistent : arbiter.Consistent)
    {tmuxName : String} (missing : arbiter.sessions tmuxName = none) :
    arbiter.conns.countP (ArbConn.registeredTo tmuxName) = 0 := by
  rw [List.countP_eq_zero]
  intro conn member registered
  obtain ⟨counted, rfl⟩ := ArbConn.registeredTo_iff.mp registered
  rw [consistent.current conn member counted] at missing
  cases missing

theorem Arbiter.Consistent.find {arbiter : Arbiter} (consistent : arbiter.Consistent)
    (tmuxName : String) :
    (arbiter.find tmuxName).1.Consistent ∧
      (arbiter.find tmuxName).1.sessions tmuxName = some (arbiter.find tmuxName).2 := by
  unfold Arbiter.find
  split
  · rename_i session found
    exact ⟨consistent, found⟩
  · rename_i missing
    refine ⟨?_, Function.update_self ..⟩
    have older : ∀ name session, arbiter.sessions name = some session →
        session ≠ arbiter.allocated := fun name session found =>
      Nat.ne_of_lt (consistent.below name session found)
    have empty := consistent.countP_eq_zero missing
    constructor
    · intro conn member counted
      have found := consistent.current conn member counted
      have different : conn.tmuxName ≠ tmuxName := by
        rintro rfl
        rw [found] at missing
        cases missing
      rw [← found]
      exact Function.update_of_ne different _ _
    · intro name session found
      simp only [Function.update_apply] at found
      split at found
      · cases found
        exact Nat.lt_succ_self _
      · exact Nat.lt_succ_of_lt (consistent.below name session found)
    · intro first second session foundFirst foundSecond
      simp only [Function.update_apply] at foundFirst foundSecond
      split at foundFirst <;> split at foundSecond
      · simp_all
      · cases foundFirst
        exact absurd rfl (older second _ foundSecond)
      · cases foundSecond
        exact absurd rfl (older first _ foundFirst)
      · exact consistent.unshared first second session foundFirst foundSecond
    · intro name session found
      simp only [Function.update_apply] at found ⊢
      split at found
      · rename_i same
        subst same
        cases found
        rw [if_pos rfl, empty]
        rfl
      · rw [if_neg (older name session found)]
        exact consistent.refs name session found
    · intro name session clientID found
      simp only [Function.update_apply] at found ⊢
      split at found
      · rename_i same
        subst same
        cases found
        have none : arbiter.conns.countP (ArbConn.attaches name clientID) = 0 := by
          refine Nat.eq_zero_of_le_zero (empty ▸ List.countP_mono_left fun conn _ attached => ?_)
          exact (ArbConn.attaches_iff.mp attached).1
        rw [if_pos rfl, none]
        rfl
      · rw [if_neg (older name session found)]
        exact consistent.live name session clientID found

/-- A change of one record and of the connections of its session, after which the record
counts them again. -/
theorem Arbiter.Consistent.recount {arbiter next : Arbiter} (consistent : arbiter.Consistent)
    {tmuxName : String} {session : Nat} {changed : ArbSession}
    (found : arbiter.sessions tmuxName = some session)
    (sessions : next.sessions = arbiter.sessions) (allocated : next.allocated = arbiter.allocated)
    (heap : next.heap = Function.update arbiter.heap session changed)
    (current : ∀ conn ∈ next.conns, conn.unregistered = false →
      arbiter.sessions conn.tmuxName = some conn.session)
    (others : ∀ name, name ≠ tmuxName →
      next.conns.countP (ArbConn.registeredTo name) =
          arbiter.conns.countP (ArbConn.registeredTo name) ∧
        ∀ clientID, next.conns.countP (ArbConn.attaches name clientID) =
          arbiter.conns.countP (ArbConn.attaches name clientID))
    (refs : changed.refs = next.conns.countP (ArbConn.registeredTo tmuxName))
    (live : ∀ clientID,
      changed.live clientID = next.conns.countP (ArbConn.attaches tmuxName clientID)) :
    next.Consistent := by
  constructor
  · rw [sessions]
    exact current
  · rw [sessions, allocated]
    exact consistent.below
  · rw [sessions]
    exact consistent.unshared
  · intro name other stored
    rw [sessions] at stored
    rw [heap, Function.update_apply]
    by_cases same : other = session
    · subst same
      cases consistent.unshared name tmuxName other stored found
      rw [if_pos rfl, refs]
    · have different : name ≠ tmuxName := by
        rintro rfl
        exact same (Option.some.inj (stored.symm.trans found))
      rw [if_neg same, (others name different).1]
      exact consistent.refs name other stored
  · intro name other clientID stored
    rw [sessions] at stored
    rw [heap, Function.update_apply]
    by_cases same : other = session
    · subst same
      cases consistent.unshared name tmuxName other stored found
      rw [if_pos rfl, live]
    · have different : name ≠ tmuxName := by
        rintro rfl
        exact same (Option.some.inj (stored.symm.trans found))
      rw [if_neg same, (others name different).2]
      exact consistent.live name other clientID stored

theorem Arbiter.Consistent.register {arbiter : Arbiter} (consistent : arbiter.Consistent)
    (tmuxName clientID : String) (sizePolicy : SizePolicy) :
    (arbiter.register tmuxName clientID sizePolicy).Consistent := by
  obtain ⟨found, stored⟩ := consistent.find tmuxName
  unfold Arbiter.register
  generalize arbiter.find tmuxName = made at found stored
  obtain ⟨arbiter, session⟩ := made
  dsimp only at found stored ⊢
  refine found.recount stored rfl rfl rfl ?_ ?_ ?_ ?_
  · intro conn member counted
    rcases List.mem_append.mp member with old | new
    · exact found.current conn old counted
    · cases List.mem_singleton.mp new
      exact stored
  · intro name different
    simp [List.countP_append, ArbConn.attaches, ArbConn.registeredTo, Ne.symm different]
  · simpa [ArbSession.join, ArbConn.registeredTo] using found.refs tmuxName session stored
  · intro client
    have counted := found.live tmuxName session client stored
    by_cases same : client = clientID
    · subst same
      simpa [ArbSession.join, ArbConn.attaches, ArbConn.registeredTo] using counted
    · simpa [ArbSession.join, ArbConn.attaches, Function.update_of_ne same, Ne.symm same]
        using counted

/-- Overwriting a connection changes no count that does not tell the two apart. -/
theorem countP_set_same (counts : ArbConn → Bool) (changed : ArbConn) {conns : List ArbConn}
    {index : Nat} {conn : ArbConn} (present : conns[index]? = some conn)
    (same : counts changed = counts conn) :
    (conns.set index changed).countP counts = conns.countP counts := by
  obtain ⟨bound, rfl⟩ := List.getElem?_eq_some_iff.mp present
  rw [List.countP_set bound, same]
  by_cases counted : counts conns[index] = true
  · have positive := List.countP_pos_iff.mpr ⟨_, List.getElem_mem bound, counted⟩
    rw [if_pos counted]
    omega
  · rw [if_neg counted]
    rfl

/-- Overwriting a counted connection by one that does not count takes one off. -/
theorem countP_set_dropped (counts : ArbConn → Bool) (changed : ArbConn) {conns : List ArbConn}
    {index : Nat} {conn : ArbConn} (present : conns[index]? = some conn)
    (counted : counts conn = true)
    (dropped : counts changed = false) :
    (conns.set index changed).countP counts + 1 = conns.countP counts := by
  obtain ⟨bound, rfl⟩ := List.getElem?_eq_some_iff.mp present
  have positive := List.countP_pos_iff.mpr ⟨_, List.getElem_mem bound, counted⟩
  rw [List.countP_set bound, if_pos counted, dropped, if_neg Bool.false_ne_true]
  omega

/-- What unregistering leaves as it is beside the records and the connections. -/
theorem Arbiter.unregister_frame (arbiter : Arbiter) (index : Nat) (conn : ArbConn) (now : Int) :
    (arbiter.unregister index conn now).lastHuman = arbiter.lastHuman ∧
      (arbiter.unregister index conn now).clock = arbiter.clock ∧
      (arbiter.unregister index conn now).allocated = arbiter.allocated := by
  unfold Arbiter.unregister
  split
  · exact ⟨rfl, rfl, rfl⟩
  · dsimp only
    split <;> exact ⟨rfl, rfl, rfl⟩

theorem Arbiter.Consistent.unregister {arbiter : Arbiter} (consistent : arbiter.Consistent)
    {index : Nat} {conn : ArbConn} (present : arbiter.conns[index]? = some conn) (now : Int) :
    (arbiter.unregister index conn now).Consistent := by
  unfold Arbiter.unregister
  split
  · exact consistent
  · rename_i open'
    have counted : conn.unregistered = false := Bool.eq_false_iff.mpr open'
    have stored := consistent.current conn (List.mem_of_getElem? present) counted
    dsimp only [Arbiter.setConn]
    rw [if_neg (not_not.mpr stored)]
    refine consistent.recount stored rfl rfl rfl ?_ ?_ ?_ ?_
    · intro other member live
      rcases List.mem_or_eq_of_mem_set member with old | rfl
      · exact consistent.current other old live
      · cases live
    · intro name different
      refine ⟨countP_set_same _ _ present ?_, fun clientID => countP_set_same _ _ present ?_⟩
      · simp [ArbConn.registeredTo, Ne.symm different]
      · simp [ArbConn.attaches, ArbConn.registeredTo, Ne.symm different]
    · have refs := consistent.refs conn.tmuxName conn.session stored
      have dropped := countP_set_dropped (ArbConn.registeredTo conn.tmuxName)
        { conn with unregistered := true } present
        (by simp [ArbConn.registeredTo, counted]) (by simp [ArbConn.registeredTo])
      simp only [ArbSession.leave, Arbiter.modify]
      split <;> dsimp only <;> omega
    · intro client
      have live := consistent.live conn.tmuxName conn.session client stored
      simp only [ArbSession.leave, Arbiter.modify]
      by_cases same : client = conn.clientID
      · subst same
        have dropped := countP_set_dropped (ArbConn.attaches conn.tmuxName conn.clientID)
          { conn with unregistered := true } present
          (by simp [ArbConn.attaches, ArbConn.registeredTo, counted])
          (by simp [ArbConn.attaches, ArbConn.registeredTo])
        split <;> simp only [Function.update_self] <;> omega
      · have apart : (conn.clientID == client) = false := beq_false_of_ne (Ne.symm same)
        have unchanged := countP_set_same (ArbConn.attaches conn.tmuxName client)
          { conn with unregistered := true } present (by simp [ArbConn.attaches, apart])
        split <;> simp only [Function.update_of_ne same] <;> rw [live, unchanged]

theorem Arbiter.Consistent.prune {arbiter : Arbiter} (consistent : arbiter.Consistent)
    (alive : String → Bool) (now : Int) : (arbiter.prune alive now).Consistent := by
  have kept : ∀ name session, (arbiter.prune alive now).sessions name = some session →
      arbiter.sessions name = some session := fun name session stored =>
    (Option.filter_eq_some_iff.mp stored).1
  constructor
  · intro conn member counted
    have stored := consistent.current conn member counted
    have refs := consistent.refs conn.tmuxName conn.session stored
    have positive : 0 < arbiter.conns.countP (ArbConn.registeredTo conn.tmuxName) :=
      List.countP_pos_iff.mpr ⟨conn, member, by simp [ArbConn.registeredTo, counted]⟩
    refine Option.filter_eq_some_iff.mpr ⟨stored, ?_⟩
    have busy : ¬ (arbiter.heap conn.session).refs ≤ 0 := by omega
    simp [busy]
  · exact fun name session stored => consistent.below name session (kept name session stored)
  · exact fun first second session storedFirst storedSecond =>
      consistent.unshared first second session (kept first session storedFirst)
        (kept second session storedSecond)
  · exact fun name session stored => consistent.refs name session (kept name session stored)
  · exact fun name session clientID stored =>
      consistent.live name session clientID (kept name session stored)

/-- A change of owner leaves the counters. -/
theorem Arbiter.Consistent.claim {arbiter : Arbiter} (consistent : arbiter.Consistent)
    {tmuxName : String} {session : Nat} (stored : arbiter.sessions tmuxName = some session)
    (clientID : String) : (arbiter.modify session (·.claim clientID)).Consistent :=
  consistent.recount stored rfl rfl rfl consistent.current (fun _ _ => ⟨rfl, fun _ => rfl⟩)
    (consistent.refs tmuxName session stored)
    (fun client => consistent.live tmuxName session client stored)

/-- New dimensions of a connection leave the counters. -/
theorem Arbiter.Consistent.setDims {arbiter : Arbiter} (consistent : arbiter.Consistent)
    {index : Nat} {conn : ArbConn} (present : arbiter.conns[index]? = some conn)
    (cols rows : UInt16) : (arbiter.setConn index { conn with cols, rows }).Consistent where
  current := by
    intro other member counted
    rcases List.mem_or_eq_of_mem_set member with old | rfl
    · exact consistent.current other old counted
    · exact consistent.current conn (List.mem_of_getElem? present) counted
  below := consistent.below
  unshared := consistent.unshared
  refs name session stored := by
    have unchanged := countP_set_same (ArbConn.registeredTo name) { conn with cols, rows }
      present rfl
    simp only [Arbiter.setConn]
    rw [unchanged]
    exact consistent.refs name session stored
  live name session clientID stored := by
    have unchanged := countP_set_same (ArbConn.attaches name clientID) { conn with cols, rows }
      present rfl
    simp only [Arbiter.setConn]
    rw [unchanged]
    exact consistent.live name session clientID stored

theorem Arbiter.Consistent.sawHuman {arbiter : Arbiter} (consistent : arbiter.Consistent)
    (clientID : String) (now : Int) : (arbiter.sawHuman clientID now).Consistent :=
  ⟨consistent.current, consistent.below, consistent.unshared, consistent.refs, consistent.live⟩

theorem Arbiter.Consistent.readClock {arbiter : Arbiter} (consistent : arbiter.Consistent)
    (now : Int) : (arbiter.readClock now).Consistent :=
  ⟨consistent.current, consistent.below, consistent.unshared, consistent.refs, consistent.live⟩

/-! ### What a call does -/

/-- A handle is stale, or it counts and its session is the stored one. -/
theorem ArbConn.stale_iff {arbiter : Arbiter} {conn : ArbConn} :
    (conn.unregistered = true ∨ arbiter.sessions conn.tmuxName ≠ some conn.session) ↔
      ¬ (conn.unregistered = false ∧ arbiter.sessions conn.tmuxName = some conn.session) := by
  rw [not_and_or, Bool.not_eq_false]

/-- A `Resize` does nothing through a stale handle; else it asks, and it either is refused or
claims the session. -/
theorem Arbiter.resize_cases {arbiter next : Arbiter} {index : Nat} {conn : ArbConn}
    {cols rows : UInt16} {active : Bool} {readings : Readings} {allowed : Option Bool}
    (resized : arbiter.resize index conn cols rows active readings = (next, allowed)) :
    (next = arbiter ∧ allowed = none ∧
      ¬ (conn.unregistered = false ∧ arbiter.sessions conn.tmuxName = some conn.session)) ∨
    (conn.unregistered = false ∧ arbiter.sessions conn.tmuxName = some conn.session ∧
      active = false ∧ ¬ (conn.sizePolicy = .followInput ∧ arbiter.mayResize conn readings) ∧
      next = arbiter.asked index conn cols rows active readings.human ∧ allowed = some false) ∨
    (conn.unregistered = false ∧ arbiter.sessions conn.tmuxName = some conn.session ∧
      (active = true ∨
        active = false ∧ conn.sizePolicy = .followInput ∧ arbiter.mayResize conn readings) ∧
      next = (arbiter.asked index conn cols rows active readings.human).modify conn.session
        (·.claim conn.clientID) ∧
      allowed = some !(active ∧ (arbiter.heap conn.session).ownerID = conn.clientID ∧
        conn.sizePolicy = .followInput)) := by
  unfold Arbiter.resize at resized
  split at resized
  · rename_i stale
    cases resized
    exact .inl ⟨rfl, rfl, ArbConn.stale_iff.mp stale⟩
  · rename_i fresh
    obtain ⟨counted, stored⟩ := not_not.mp (ArbConn.stale_iff.not.mp fresh)
    dsimp only at resized
    cases active with
    | true =>
      rw [if_pos (.inl rfl)] at resized
      cases resized
      exact .inr (.inr ⟨counted, stored, .inl rfl, rfl, rfl⟩)
    | false =>
      split at resized
      · rename_i claims
        cases resized
        have may := claims.resolve_left Bool.false_ne_true
        exact .inr (.inr ⟨counted, stored, .inr ⟨rfl, may⟩, rfl, rfl⟩)
      · rename_i refused
        cases resized
        rw [not_or] at refused
        exact .inr (.inl ⟨counted, stored, rfl, refused.2, rfl, rfl⟩)

/-- A `ClaimInput` does nothing through a stale handle; else it records the gesture, and then
it may claim the session. -/
theorem Arbiter.claimInput_cases {arbiter next : Arbiter} {conn : ArbConn} {now : Int}
    {dims : Option (UInt16 × UInt16)} (claimed : arbiter.claimInput conn now = (next, dims)) :
    (next = arbiter ∧
      ¬ (conn.unregistered = false ∧ arbiter.sessions conn.tmuxName = some conn.session)) ∨
    (conn.unregistered = false ∧ arbiter.sessions conn.tmuxName = some conn.session ∧
      (next = arbiter.sawHuman conn.clientID now ∨
        conn.sizePolicy = .followInput ∧
        next = (arbiter.sawHuman conn.clientID now).modify conn.session
          (·.claim conn.clientID))) := by
  unfold Arbiter.claimInput at claimed
  split at claimed
  · rename_i stale
    cases claimed
    exact .inl ⟨rfl, ArbConn.stale_iff.mp stale⟩
  · rename_i fresh
    obtain ⟨counted, stored⟩ := not_not.mp (ArbConn.stale_iff.not.mp fresh)
    refine .inr ⟨counted, stored, ?_⟩
    dsimp only at claimed
    split at claimed
    · cases claimed
      exact .inl rfl
    · rename_i takes
      cases claimed
      rw [not_or] at takes
      refine .inr ⟨?_, rfl⟩
      cases policy : conn.sizePolicy with
      | followInput => rfl
      | passive => exact absurd policy takes.1

/-- What one call can do, its clock readings and its connection included. -/
inductive Arbiter.Performed (arbiter : Arbiter) : ArbAction → Arbiter → Option Applied → Prop
  | register (tmuxName clientID : String) (sizePolicy : SizePolicy) :
      Performed arbiter (.register tmuxName clientID sizePolicy)
        (arbiter.register tmuxName clientID sizePolicy) none
  | unregister (index : Nat) (now : Int) (conn : ArbConn) (later : arbiter.clock ≤ now)
      (present : arbiter.conns[index]? = some conn) :
      Performed arbiter (.unregister index now)
        ((arbiter.readClock now).unregister index conn now) none
  | prune (alive : String → Bool) (now : Int) (later : arbiter.clock ≤ now) :
      Performed arbiter (.prune alive now) ((arbiter.readClock now).prune alive now) none
  | resize (index : Nat) (cols rows : UInt16) (active : Bool) (readings : Readings)
      (conn : ArbConn) (next : Arbiter) (allowed : Option Bool)
      (later : arbiter.clock ≤ readings.human) (present : arbiter.conns[index]? = some conn)
      (resized : (arbiter.readClock readings.presence).resize index conn cols rows active readings =
        (next, allowed)) :
      Performed arbiter (.resize index cols rows active readings) next (allowed.map .sized)
  | claimInput (index : Nat) (now : Int) (conn : ArbConn) (next : Arbiter)
      (dims : Option (UInt16 × UInt16)) (later : arbiter.clock ≤ now)
      (present : arbiter.conns[index]? = some conn)
      (claimed : (arbiter.readClock now).claimInput conn now = (next, dims)) :
      Performed arbiter (.claimInput index now) next (dims.map .reapplied)

theorem Arbiter.tick_eq_some {arbiter next : Arbiter} {first last : Int}
    (ticked : arbiter.tick first last = some next) :
    arbiter.clock ≤ first ∧ next = arbiter.readClock last := by
  unfold Arbiter.tick at ticked
  split at ticked
  · rename_i later
    cases ticked
    exact ⟨later, rfl⟩
  · cases ticked

theorem Arbiter.performed_of_perform {arbiter next : Arbiter} {action : ArbAction}
    {applied : Option Applied} (done : arbiter.perform action = some (next, applied)) :
    arbiter.Performed action next applied := by
  cases action with
  | register tmuxName clientID sizePolicy =>
    cases done
    exact .register tmuxName clientID sizePolicy
  | unregister index now =>
    obtain ⟨_, ticked, done⟩ := Option.bind_eq_some_iff.mp done
    obtain ⟨later, rfl⟩ := Arbiter.tick_eq_some ticked
    obtain ⟨conn, present, done⟩ := Option.bind_eq_some_iff.mp done
    cases done
    exact .unregister index now conn later present
  | prune alive now =>
    obtain ⟨_, ticked, done⟩ := Option.bind_eq_some_iff.mp done
    obtain ⟨later, rfl⟩ := Arbiter.tick_eq_some ticked
    cases done
    exact .prune alive now later
  | resize index cols rows active readings =>
    obtain ⟨_, ticked, done⟩ := Option.bind_eq_some_iff.mp done
    obtain ⟨later, rfl⟩ := Arbiter.tick_eq_some ticked
    obtain ⟨conn, present, done⟩ := Option.bind_eq_some_iff.mp done
    cases done
    exact .resize index cols rows active readings conn _ _ later present rfl
  | claimInput index now =>
    obtain ⟨_, ticked, done⟩ := Option.bind_eq_some_iff.mp done
    obtain ⟨later, rfl⟩ := Arbiter.tick_eq_some ticked
    obtain ⟨conn, present, done⟩ := Option.bind_eq_some_iff.mp done
    cases done
    exact .claimInput index now conn _ _ later present rfl

theorem Arbiter.Consistent.asked {arbiter : Arbiter} (consistent : arbiter.Consistent)
    {index : Nat} {conn : ArbConn} (present : arbiter.conns[index]? = some conn)
    (cols rows : UInt16) (active : Bool) (now : Int) :
    (arbiter.asked index conn cols rows active now).Consistent := by
  unfold Arbiter.asked
  split
  · exact (consistent.setDims present cols rows).sawHuman conn.clientID now
  · exact consistent.setDims present cols rows

theorem Arbiter.Consistent.performed {arbiter next : Arbiter} {action : ArbAction}
    {applied : Option Applied} (consistent : arbiter.Consistent)
    (done : arbiter.Performed action next applied) : next.Consistent := by
  cases done with
  | register tmuxName clientID sizePolicy =>
    exact consistent.register tmuxName clientID sizePolicy
  | unregister index now conn later present =>
    exact (consistent.readClock now).unregister present now
  | prune alive now later => exact (consistent.readClock now).prune alive now
  | resize index cols rows active readings conn next allowed later present resized =>
    have ready := consistent.readClock readings.presence
    have asked := ready.asked present cols rows active readings.human
    rcases Arbiter.resize_cases resized with ⟨rfl, -, -⟩ | ⟨-, -, -, -, rfl, -⟩ |
      ⟨-, stored, -, rfl, -⟩
    · exact ready
    · exact asked
    · rw [← Arbiter.asked_sessions _ index conn cols rows active readings.human] at stored
      exact asked.claim stored conn.clientID
  | claimInput index now conn next dims later present claimed =>
    have ready := consistent.readClock now
    rcases Arbiter.claimInput_cases claimed with ⟨rfl, -⟩ | ⟨-, stored, rfl | ⟨-, rfl⟩⟩
    · exact ready
    · exact ready.sawHuman conn.clientID now
    · exact (ready.sawHuman conn.clientID now).claim stored conn.clientID

/-- In every run the records in the map count the registered connections. -/
theorem Arbiter.consistent_run {clock : Int} {arbiter : Arbiter} {actions : List ArbAction}
    {allowed : Arbiter → ArbAction → Prop}
    (run : Run Arbiter.step allowed (newArbiter clock) actions arbiter) : arbiter.Consistent := by
  refine run.invariant Arbiter.Consistent (Arbiter.consistent_newArbiter clock) ?_
  intro before action next consistent _ taken
  obtain ⟨⟨_, applied⟩, done, rfl⟩ := Option.map_eq_some_iff.mp taken
  exact consistent.performed (Arbiter.performed_of_perform done)

end Multimux
