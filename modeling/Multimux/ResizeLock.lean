/-
This file models the two mutexes of the arbiter. A resize decides who owns the
session under one of them, and calls `apply` afterwards, still holding the
other, the record's own. Calls overlap in every way the mutexes allow. While no
resize is under way on a record, the owner it names is the client of the
connection that last sized the window: the claim and the call that follows it
are two steps, but the record's mutex keeps every other resize and unregister
of the record out of the gap.
-/

import Multimux.Interleaving
import Multimux.Ownership

namespace Multimux

/-! ### Calls and their critical sections -/

/-- A call of `apply`, by the connection and the record it was made for. -/
structure Application where
  session : Nat
  index : Nat
  resizeWindow : Bool

/-- The arbiter, the mutex of each record and the calls of `apply` so far. -/
structure LockedArbiter where
  arbiter : Arbiter
  resizeMu : Nat → Bool
  applied : List Application

/-- A call of one of the operations the handlers and the reconcile tick use. -/
inductive ArbCall
  | register (tmuxName clientID : String) (sizePolicy : SizePolicy)
  | unregister (index : Nat)
  | resize (index : Nat) (cols rows : UInt16) (active : Bool)
  | prune (alive : String → Bool)

/-- Where a call stands; from `deciding` on a resize holds the mutex of its record, and from
`unregistering` on an unregister does. -/
inductive ArbProc
  | registering (tmuxName clientID : String) (sizePolicy : SizePolicy)
  | pruning (alive : String → Bool)
  | unregisterLocking (index : Nat)
  | unregistering (index session : Nat)
  | unregisterUnlocking (session : Nat)
  | resizeLocking (index : Nat) (cols rows : UInt16) (active : Bool)
  | deciding (index session : Nat) (cols rows : UInt16) (active : Bool)
  | applying (index session : Nat) (resizeWindow : Bool)
  | resizeUnlocking (session : Nat)
  | returned

/-- A call before its first step. -/
def ArbCall.enter : ArbCall → ArbProc
  | .register tmuxName clientID sizePolicy => .registering tmuxName clientID sizePolicy
  | .unregister index => .unregisterLocking index
  | .resize index cols rows active => .resizeLocking index cols rows active
  | .prune alive => .pruning alive

/-- Take a record's mutex, which blocks while another call holds it. -/
def LockedArbiter.lock (world : LockedArbiter) (session : Nat) : Option LockedArbiter :=
  if world.resizeMu session then none
  else some { world with resizeMu := Function.update world.resizeMu session true }

/-- `Unlock` of the mutex of a session. -/
def LockedArbiter.unlock (world : LockedArbiter) (session : Nat) : LockedArbiter :=
  { world with resizeMu := Function.update world.resizeMu session false }

/-- A critical section under the arbiter's own mutex, and where the call goes from its
result. -/
def LockedArbiter.critical (world : LockedArbiter) (action : ArbAction)
    (resume : Option Applied → ArbProc) : Option (LockedArbiter × ArbProc) :=
  (world.arbiter.perform action).map fun done =>
    ({ world with arbiter := done.1 }, resume done.2)

/-- A resize through a stale handle returns without a call of `apply`. -/
def afterDecision (index session : Nat) : Option Applied → ArbProc
  | some (.sized resizeWindow) => .applying index session resizeWindow
  | _ => .resizeUnlocking session

/-- The calls, one critical section, mutex operation or call of `apply` at a time. -/
def stepArbiter (world : LockedArbiter) : ArbProc → Readings → Option (LockedArbiter × ArbProc)
  | .registering tmuxName clientID sizePolicy, _ =>
    world.critical (.register tmuxName clientID sizePolicy) fun _ => .returned
  | .pruning alive, readings => world.critical (.prune alive readings.human) fun _ => .returned
  | .unregisterLocking index, _ => do
    let conn ← world.arbiter.conns[index]?
    let world ← world.lock conn.session
    return (world, .unregistering index conn.session)
  | .unregistering index session, readings =>
    world.critical (.unregister index readings.human) fun _ => .unregisterUnlocking session
  | .unregisterUnlocking session, _ => some (world.unlock session, .returned)
  | .resizeLocking index cols rows active, _ => do
    let conn ← world.arbiter.conns[index]?
    let world ← world.lock conn.session
    return (world, .deciding index conn.session cols rows active)
  | .deciding index session cols rows active, readings =>
    world.critical (.resize index cols rows active readings) (afterDecision index session)
  | .applying index session resizeWindow, _ =>
    some ({ world with applied := world.applied ++ [⟨session, index, resizeWindow⟩] },
      .resizeUnlocking session)
  | .resizeUnlocking session, _ => some (world.unlock session, .returned)
  | .returned, _ => none

/-- Overlapping calls of one arbiter. The readings of the clock come from outside. -/
def arbiterMachine : Machine LockedArbiter ArbCall ArbProc Readings Empty where
  enter := ArbCall.enter
  step := stepArbiter
  outside _ event := event.elim

/-- A new arbiter, before any call. -/
def unlockedArbiter (clock : Int) : Pool LockedArbiter ArbProc where
  world := { arbiter := newArbiter clock, resizeMu := fun _ => false, applied := [] }
  procs := []

/-! ### What is kept of a record -/

/-- The most recent call of `apply(true)` for a record. -/
def LockedArbiter.lastSized (world : LockedArbiter) (session : Nat) : Option Application :=
  (world.applied.filter fun application =>
    application.session = session && application.resizeWindow).getLast?

/-- The connection is the client's and points to the record. -/
def Arbiter.ConnOf (arbiter : Arbiter) (index session : Nat) (clientID : String) : Prop :=
  ∃ conn, arbiter.conns[index]? = some conn ∧ conn.session = session ∧ conn.clientID = clientID

/-- Nobody owns the record, or the client of the connection that last sized its window does. -/
def LockedArbiter.Agrees (world : LockedArbiter) (session : Nat) : Prop :=
  (world.arbiter.heap session).ownerID = "" ∨
    ∃ application, world.lastSized session = some application ∧
      world.arbiter.ConnOf application.index session (world.arbiter.heap session).ownerID

/-! ### The operations, record by record -/

/-- A connection written to in place, with the client and the record it had. -/
theorem Arbiter.connOf_set (arbiter : Arbiter) {place : Nat} {conn : ArbConn}
    (present : arbiter.conns[place]? = some conn) (changed : ArbConn)
    (client : changed.clientID = conn.clientID)
    (record : changed.session = conn.session) {index session : Nat} {clientID : String}
    (before : arbiter.ConnOf index session clientID) :
    (arbiter.setConn place changed).ConnOf index session clientID := by
  obtain ⟨other, found, rfl, rfl⟩ := before
  by_cases same : place = index
  · subst same
    cases present.symm.trans found
    obtain ⟨bound, -⟩ := List.getElem?_eq_some_iff.mp found
    exact ⟨changed, List.getElem?_set_self bound, record, client⟩
  · exact ⟨other, (List.getElem?_set_ne same).trans found, rfl, rfl⟩

theorem Arbiter.connOf_asked (arbiter : Arbiter) {place : Nat} {conn : ArbConn}
    (present : arbiter.conns[place]? = some conn) (cols rows : UInt16) (active : Bool) (now : Int)
    {index session : Nat} {clientID : String} (before : arbiter.ConnOf index session clientID) :
    (arbiter.asked place conn cols rows active now).ConnOf index session clientID := by
  unfold Arbiter.asked
  split
  · exact arbiter.connOf_set present { conn with cols, rows } rfl rfl before
  · exact arbiter.connOf_set present { conn with cols, rows } rfl rfl before

/-- A connection keeps its client and its record. -/
theorem Arbiter.Performed.connOf {arbiter next : Arbiter} {action : ArbAction}
    {applied : Option Applied} (done : arbiter.Performed action next applied)
    {index session : Nat} {clientID : String} (before : arbiter.ConnOf index session clientID) :
    next.ConnOf index session clientID := by
  cases done with
  | register tmuxName client sizePolicy =>
    obtain ⟨conn, found, record, same⟩ := before
    refine ⟨conn, ?_, record, same⟩
    simp only [Arbiter.register, Arbiter.find_conns]
    exact getElem?_concat_left found
  | unregister place now conn later present =>
    unfold Arbiter.unregister
    split
    · exact before
    · dsimp only
      split <;> exact (arbiter.readClock now).connOf_set present
        { conn with unregistered := true } rfl rfl before
  | prune alive now later => exact before
  | resize place cols rows active readings conn next allowed later present resized =>
    have asked := (arbiter.readClock readings.presence).connOf_asked present cols rows active
      readings.human before
    rcases Arbiter.resize_cases resized with ⟨rfl, -, -⟩ | ⟨-, -, -, -, rfl, -⟩ |
      ⟨-, -, -, rfl, -⟩
    · exact before
    · exact asked
    · exact asked
  | claimInput place now conn next dims later present claimed =>
    rcases Arbiter.claimInput_cases claimed with ⟨rfl, -⟩ | ⟨-, -, rfl | ⟨-, rfl⟩⟩ <;>
      exact before

/-- `Register` gives a fresh record to nobody and leaves every other owner. -/
theorem Arbiter.ownerID_register (arbiter : Arbiter) (tmuxName clientID : String)
    (sizePolicy : SizePolicy) (session : Nat) :
    ((arbiter.register tmuxName clientID sizePolicy).heap session).ownerID =
        (arbiter.heap session).ownerID ∨
      session = arbiter.allocated ∧
        ((arbiter.register tmuxName clientID sizePolicy).heap session).ownerID = "" := by
  have joined := ((arbiter.find tmuxName).1.modify_keeps (arbiter.find tmuxName).2
    (·.join clientID) (fun _ => rfl) (fun _ => rfl) session).1
  have found : ((arbiter.find tmuxName).1.heap session).ownerID =
        (arbiter.heap session).ownerID ∨
      session = arbiter.allocated ∧ ((arbiter.find tmuxName).1.heap session).ownerID = "" := by
    unfold Arbiter.find
    split
    · exact .inl rfl
    · dsimp only
      rw [Function.update_apply]
      split
      · rename_i same
        exact .inr ⟨same, rfl⟩
      · exact .inl rfl
  exact found.imp joined.trans fun fresh => ⟨fresh.1, joined.trans fresh.2⟩

theorem Arbiter.ownerID_unregister (arbiter : Arbiter) (index : Nat) (conn : ArbConn) (now : Int)
    (session : Nat) :
    ((arbiter.unregister index conn now).heap session).ownerID =
      (arbiter.heap session).ownerID := by
  unfold Arbiter.unregister
  split
  · rfl
  · dsimp only
    split
    · rfl
    · simp only [Arbiter.modify, Arbiter.setConn, Function.update_apply]
      split
      · rename_i same
        rw [same]
        exact ArbSession.ownerID_leave _ conn.clientID now
      · rfl

/-- A resize leaves the owner of every other record; of its own it makes the client the owner if
it is about to size the window, and leaves the owner if not. -/
theorem Arbiter.ownerID_resize {arbiter next : Arbiter} {index : Nat} {conn : ArbConn}
    {cols rows : UInt16} {active : Bool} {readings : Readings} {allowed : Option Bool}
    (resized : arbiter.resize index conn cols rows active readings = (next, allowed))
    (session : Nat) :
    (next.heap session).ownerID =
      if session = conn.session ∧ allowed = some true then conn.clientID
      else (arbiter.heap session).ownerID := by
  rcases Arbiter.resize_cases resized with ⟨rfl, rfl, -⟩ | ⟨-, -, -, -, rfl, rfl⟩ |
    ⟨-, -, -, rfl, rfl⟩
  · simp
  · simp
  · simp only [Arbiter.modify, Arbiter.asked_heap, Function.update_apply]
    by_cases same : session = conn.session
    · subst same
      simp only [ArbSession.claim, ↓reduceIte, true_and]
      split
      · rfl
      · rename_i repeats
        have owner : active = true ∧ (arbiter.heap conn.session).ownerID = conn.clientID ∧
            conn.sizePolicy = .followInput := by simpa using repeats
        exact owner.2.1.symm
    · simp [same]

/-- What one call does to the owner of a record. -/
theorem Arbiter.Performed.ownerID {arbiter next : Arbiter} {action : ArbAction}
    {applied : Option Applied} (done : arbiter.Performed action next applied)
    (unclaimed : ∀ index now, action ≠ .claimInput index now) (session : Nat) :
    (next.heap session).ownerID = (arbiter.heap session).ownerID ∨
      session = arbiter.allocated ∧ (next.heap session).ownerID = "" ∨
      ∃ index cols rows active readings, action = .resize index cols rows active readings ∧
        applied = some (.sized true) ∧
        arbiter.ConnOf index session (next.heap session).ownerID := by
  cases done with
  | register tmuxName clientID sizePolicy =>
    exact (arbiter.ownerID_register tmuxName clientID sizePolicy session).imp_right .inl
  | unregister index now conn later present =>
    exact .inl ((arbiter.readClock now).ownerID_unregister index conn now session)
  | prune alive now later => exact .inl rfl
  | resize index cols rows active readings conn next allowed later present resized =>
    have owner := Arbiter.ownerID_resize resized session
    split at owner
    · rename_i sizes
      obtain ⟨rfl, rfl⟩ := sizes
      exact .inr (.inr ⟨index, cols, rows, active, readings, rfl, rfl, conn, present, rfl,
        owner.symm⟩)
    · exact .inl owner
  | claimInput index now => exact absurd rfl (unclaimed index now)

/-- Every connection points to a record that was allocated. -/
def Arbiter.Bounded (arbiter : Arbiter) : Prop :=
  ∀ conn ∈ arbiter.conns, conn.session < arbiter.allocated

theorem Arbiter.Bounded.setConn {arbiter : Arbiter} (bounded : arbiter.Bounded) {place : Nat}
    {conn : ArbConn} (present : arbiter.conns[place]? = some conn) (changed : ArbConn)
    (record : changed.session = conn.session) : (arbiter.setConn place changed).Bounded := by
  intro other member
  rcases List.mem_or_eq_of_mem_set member with old | rfl
  · exact bounded other old
  · rw [record]
    exact bounded conn (List.mem_of_getElem? present)

theorem Arbiter.Bounded.asked {arbiter : Arbiter} (bounded : arbiter.Bounded) {place : Nat}
    {conn : ArbConn} (present : arbiter.conns[place]? = some conn) (cols rows : UInt16)
    (active : Bool) (now : Int) :
    (arbiter.asked place conn cols rows active now).allocated = arbiter.allocated ∧
      (arbiter.asked place conn cols rows active now).Bounded := by
  unfold Arbiter.asked
  split
  · exact ⟨rfl, bounded.setConn present { conn with cols, rows } rfl⟩
  · exact ⟨rfl, bounded.setConn present { conn with cols, rows } rfl⟩

theorem Arbiter.Performed.bounded {arbiter next : Arbiter} {action : ArbAction}
    {applied : Option Applied} (consistent : arbiter.Consistent) (bounded : arbiter.Bounded)
    (done : arbiter.Performed action next applied) :
    arbiter.allocated ≤ next.allocated ∧ next.Bounded := by
  cases done with
  | register tmuxName clientID sizePolicy =>
    have grows : arbiter.allocated ≤ (arbiter.find tmuxName).1.allocated := by
      unfold Arbiter.find
      split
      · exact Nat.le_refl _
      · exact Nat.le_succ _
    obtain ⟨found, stored⟩ := consistent.find tmuxName
    refine ⟨grows, fun conn member => ?_⟩
    simp only [Arbiter.register, Arbiter.find_conns, List.mem_append, List.mem_singleton]
      at member
    rcases member with old | rfl
    · exact Nat.lt_of_lt_of_le (bounded conn old) grows
    · exact found.below tmuxName _ stored
  | unregister index now conn later present =>
    have ready : (arbiter.readClock now).Bounded := bounded
    refine ⟨((arbiter.readClock now).unregister_frame index conn now).2.2.ge, ?_⟩
    unfold Arbiter.unregister
    split
    · exact ready
    · dsimp only
      split <;> exact ready.setConn present { conn with unregistered := true } rfl
  | prune alive now later => exact ⟨Nat.le_refl _, bounded⟩
  | resize index cols rows active readings conn next allowed later present resized =>
    have ready : (arbiter.readClock readings.presence).Bounded := bounded
    obtain ⟨allocated, asked⟩ := ready.asked present cols rows active readings.human
    rcases Arbiter.resize_cases resized with ⟨rfl, -, -⟩ | ⟨-, -, -, -, rfl, -⟩ |
      ⟨-, -, -, rfl, -⟩
    · exact ⟨Nat.le_refl _, bounded⟩
    · exact ⟨allocated.ge, asked⟩
    · exact ⟨allocated.ge, asked⟩
  | claimInput index now conn next dims later present claimed =>
    rcases Arbiter.claimInput_cases claimed with ⟨rfl, -⟩ | ⟨-, -, rfl | ⟨-, rfl⟩⟩ <;>
      exact ⟨Nat.le_refl _, bounded⟩

/-! ### The outline -/

/-- The record whose mutex a call holds. -/
def ArbProc.holds : ArbProc → Option Nat
  | .unregistering _ session | .unregisterUnlocking session | .deciding _ session _ _ _
  | .applying _ session _ | .resizeUnlocking session => some session
  | _ => none

theorem afterDecision_holds (index session : Nat) (applied : Option Applied) :
    (afterDecision index session applied).holds = some session := by
  unfold afterDecision
  split <;> rfl

/-- What a call relies on while it holds a record's mutex: that the record agrees with its
window, or that the call of `apply` it is about to make is the owner's. -/
def ArbProc.Stands (world : LockedArbiter) : ArbProc → Prop
  | .unregistering _ session | .unregisterUnlocking session | .resizeUnlocking session =>
    world.Agrees session
  | .deciding index session _ _ _ =>
    world.Agrees session ∧ ∃ clientID, world.arbiter.ConnOf index session clientID
  | .applying index session true =>
    world.arbiter.ConnOf index session (world.arbiter.heap session).ownerID
  | .applying _ session false => world.Agrees session
  | _ => True

/-- What holds of the arbiter and its mutexes: a record whose mutex is free agrees with its
window. -/
structure LockedArbiter.Sound (world : LockedArbiter) : Prop where
  consistent : world.arbiter.Consistent
  bounded : world.arbiter.Bounded
  agrees : ∀ session, world.resizeMu session = false → world.Agrees session

/-- What holds of the arbiter, of a call that stands somewhere, and of two calls. -/
def arbiterOutline : Outline LockedArbiter ArbProc where
  shared := LockedArbiter.Sound
  here world proc := proc.Stands world ∧ ∀ session, proc.holds = some session →
    world.resizeMu session = true ∧ session < world.arbiter.allocated
  apart one other := ∀ session, one.holds = some session → other.holds ≠ some session

/-- A step leaves what is known of a record. -/
structure LockedArbiter.Keeps (world after : LockedArbiter) (session : Nat) : Prop where
  ownerID : (after.arbiter.heap session).ownerID = (world.arbiter.heap session).ownerID
  sized : after.lastSized session = world.lastSized session
  connOf : ∀ index clientID, world.arbiter.ConnOf index session clientID →
    after.arbiter.ConnOf index session clientID

theorem LockedArbiter.Keeps.agrees {world after : LockedArbiter} {session : Nat}
    (keeps : world.Keeps after session) (before : world.Agrees session) :
    after.Agrees session := by
  unfold LockedArbiter.Agrees
  rw [keeps.ownerID, keeps.sized]
  refine before.imp_right ?_
  rintro ⟨application, last, made⟩
  exact ⟨application, last, keeps.connOf _ _ made⟩

theorem LockedArbiter.Keeps.stands {world after : LockedArbiter} {proc : ArbProc}
    (keeps : ∀ session, proc.holds = some session → world.Keeps after session)
    (before : proc.Stands world) : proc.Stands after := by
  cases proc with
  | unregistering _ session => exact (keeps session rfl).agrees before
  | unregisterUnlocking session => exact (keeps session rfl).agrees before
  | resizeUnlocking session => exact (keeps session rfl).agrees before
  | deciding index session cols rows active =>
    exact ⟨(keeps session rfl).agrees before.1,
      before.2.imp fun clientID => (keeps session rfl).connOf index clientID⟩
  | applying index session resizeWindow =>
    cases resizeWindow with
    | false => exact (keeps session rfl).agrees before
    | true =>
      have made := (keeps session rfl).connOf index _ before
      rwa [← (keeps session rfl).ownerID] at made
  | _ => exact trivial

/-! ### The outline is kept -/

theorem LockedArbiter.critical_eq_some {world after : LockedArbiter} {action : ArbAction}
    {resume : Option Applied → ArbProc} {next : ArbProc}
    (stepped : world.critical action resume = some (after, next)) :
    ∃ arbiter applied, world.arbiter.Performed action arbiter applied ∧
      after = { world with arbiter } ∧ next = resume applied := by
  obtain ⟨⟨arbiter, applied⟩, done, same⟩ := Option.map_eq_some_iff.mp stepped
  cases same
  exact ⟨arbiter, applied, Arbiter.performed_of_perform done, rfl, rfl⟩

/-- A critical section keeps what is known of every record but the one it resizes. -/
theorem LockedArbiter.keeps_critical (world : LockedArbiter) {arbiter : Arbiter}
    {action : ArbAction} {applied : Option Applied}
    (done : world.arbiter.Performed action arbiter applied)
    (unclaimed : ∀ index now, action ≠ .claimInput index now) {session : Nat}
    (older : session < world.arbiter.allocated)
    (elsewhere : ∀ index cols rows active readings clientID,
      action = .resize index cols rows active readings → applied = some (.sized true) →
      ¬ world.arbiter.ConnOf index session clientID) :
    world.Keeps { world with arbiter } session where
  ownerID := by
    rcases done.ownerID unclaimed session with same | ⟨fresh, -⟩ |
      ⟨index, cols, rows, active, readings, sizes, allowed, made⟩
    · exact same
    · exact absurd fresh (Nat.ne_of_lt older)
    · exact absurd made (elsewhere index cols rows active readings _ sizes allowed)
  sized := rfl
  connOf _ _ := done.connOf

/-- A critical section keeps the arbiter sound, apart from the record it resizes. -/
theorem LockedArbiter.Sound.critical {world : LockedArbiter} (sound : world.Sound)
    {arbiter : Arbiter} {action : ArbAction} {applied : Option Applied}
    (done : world.arbiter.Performed action arbiter applied)
    (unclaimed : ∀ index now, action ≠ .claimInput index now)
    (elsewhere : ∀ session, world.resizeMu session = false →
      ∀ index cols rows active readings clientID,
        action = .resize index cols rows active readings → applied = some (.sized true) →
        ¬ world.arbiter.ConnOf index session clientID) :
    LockedArbiter.Sound { world with arbiter } where
  consistent := sound.consistent.performed done
  bounded := (done.bounded sound.consistent sound.bounded).2
  agrees session free := by
    rcases done.ownerID unclaimed session with same | ⟨-, nobody⟩ |
      ⟨index, cols, rows, active, readings, sizes, allowed, made⟩
    · have keeps : world.Keeps { world with arbiter } session := ⟨same, rfl, fun _ _ => done.connOf⟩
      exact keeps.agrees (sound.agrees session free)
    · exact .inl nobody
    · exact absurd made (elsewhere session free index cols rows active readings _ sizes allowed)

/-- A call that takes only a free mutex, and keeps what is known of the records whose mutex
another call holds, leaves the other calls where they stand. -/
theorem arbiterOutline_others {pool : Pool LockedArbiter ArbProc}
    (holds : arbiterOutline.Holds pool) {index : Nat} {proc after : ArbProc}
    {world : LockedArbiter} (present : pool.procs[index]? = some proc)
    (grows : pool.world.arbiter.allocated ≤ world.arbiter.allocated)
    (keeps : ∀ session, proc.holds ≠ some session → pool.world.resizeMu session = true →
      session < pool.world.arbiter.allocated →
      pool.world.Keeps world session ∧ world.resizeMu session = true)
    (taken : ∀ session, after.holds = some session →
      proc.holds = some session ∨ pool.world.resizeMu session = false)
    {other : Nat} {second : ArbProc} (different : other ≠ index)
    (found : pool.procs[other]? = some second) :
    arbiterOutline.here world second ∧ arbiterOutline.apart after second ∧
      arbiterOutline.apart second after := by
  obtain ⟨stands, locked⟩ := holds.here other second found
  have apart : ∀ session, second.holds = some session → proc.holds ≠ some session :=
    holds.apart other index second proc different found present
  have disjoint : ∀ session, second.holds = some session → after.holds ≠ some session := by
    intro session held takes
    rcases taken session takes with already | free
    · exact apart session held already
    · rw [(locked session held).1] at free
      cases free
  refine ⟨⟨LockedArbiter.Keeps.stands (fun session held => ?_) stands, fun session held => ?_⟩,
    fun session takes held => disjoint session held takes, disjoint⟩
  · exact (keeps session (apart session held) (locked session held).1 (locked session held).2).1
  · exact ⟨(keeps session (apart session held) (locked session held).1 (locked session held).2).2,
      Nat.lt_of_lt_of_le (locked session held).2 grows⟩

/-- The calls that make nobody an owner. -/
def ArbAction.claimsNothing : ArbAction → Bool
  | .register _ _ _ | .unregister _ _ | .prune _ _ => true
  | .resize _ _ _ _ _ | .claimInput _ _ => false

/-- A critical section outside a resize keeps the outline. -/
theorem arbiterOutline_critical {pool : Pool LockedArbiter ArbProc}
    (holds : arbiterOutline.Holds pool) {index : Nat} {proc : ArbProc}
    (present : pool.procs[index]? = some proc) (action : ArbAction)
    (harmless : action.claimsNothing = true)
    (resume : Option Applied → ArbProc) {world : LockedArbiter} {after : ArbProc}
    (stepped : pool.world.critical action resume = some (world, after))
    (same : ∀ applied, (resume applied).holds = proc.holds)
    (resumes : ∀ applied, proc.Stands world → (resume applied).Stands world) :
    arbiterOutline.Kept pool index world after := by
  obtain ⟨arbiter, applied, done, rfl, rfl⟩ := LockedArbiter.critical_eq_some stepped
  obtain ⟨grows, -⟩ := done.bounded holds.shared.consistent holds.shared.bounded
  have unclaimed : ∀ index now, action ≠ .claimInput index now := by
    rintro _ _ rfl
    cases harmless
  have noResize : ∀ index cols rows active readings,
      action ≠ .resize index cols rows active readings := by
    rintro _ _ _ _ _ rfl
    cases harmless
  have keeps : ∀ session, session < pool.world.arbiter.allocated →
      pool.world.Keeps { pool.world with arbiter } session := fun session older =>
    pool.world.keeps_critical done unclaimed older fun _ _ _ _ _ _ resizes =>
      absurd resizes (noResize _ _ _ _ _)
  obtain ⟨stands, locked⟩ := holds.here index proc present
  refine ⟨?_, ⟨?_, ?_⟩, fun other second different found => ?_⟩
  · exact holds.shared.critical done unclaimed fun _ _ _ _ _ _ _ _ resizes =>
      absurd resizes (noResize _ _ _ _ _)
  · exact resumes applied (LockedArbiter.Keeps.stands
      (fun session held => keeps session (locked session held).2) stands)
  · intro session held
    rw [same] at held
    exact ⟨(locked session held).1, Nat.lt_of_lt_of_le (locked session held).2 grows⟩
  · refine arbiterOutline_others holds present grows
      (fun session _ mutex older => ⟨keeps session older, mutex⟩) (fun session held => ?_)
      different found
    rw [same] at held
    exact .inl held

theorem LockedArbiter.lock_eq_some {world locked : LockedArbiter} {session : Nat}
    (taken : world.lock session = some locked) :
    world.resizeMu session = false ∧
      locked = { world with resizeMu := Function.update world.resizeMu session true } := by
  unfold LockedArbiter.lock at taken
  split at taken
  · cases taken
  · rename_i free
    exact ⟨Bool.eq_false_iff.mpr free, (Option.some.inj taken).symm⟩

/-- Taking a free mutex keeps the outline. -/
theorem arbiterOutline_lock {pool : Pool LockedArbiter ArbProc}
    (holds : arbiterOutline.Holds pool) {index : Nat} {proc : ArbProc}
    (present : pool.procs[index]? = some proc) {session : Nat}
    (bound : session < pool.world.arbiter.allocated) {world : LockedArbiter} {after : ArbProc}
    (taken : pool.world.lock session = some world) (held : after.holds = some session)
    (stands : pool.world.Agrees session → after.Stands world) :
    arbiterOutline.Kept pool index world after := by
  obtain ⟨free, rfl⟩ := LockedArbiter.lock_eq_some taken
  refine ⟨⟨holds.shared.consistent, holds.shared.bounded, fun other unlocked => ?_⟩,
    ⟨stands (holds.shared.agrees session free), ?_⟩, fun other second different found => ?_⟩
  · refine holds.shared.agrees other ?_
    dsimp only at unlocked
    rw [Function.update_apply] at unlocked
    split at unlocked
    · cases unlocked
    · exact unlocked
  · intro own holding
    cases held.symm.trans holding
    exact ⟨Function.update_self .., bound⟩
  · refine arbiterOutline_others holds present ?_ (fun own _ mutex _ => ?_)
      (fun own holding => ?_) different found
    · exact Nat.le_refl _
    · refine ⟨⟨rfl, rfl, fun _ _ => id⟩, ?_⟩
      dsimp only
      rw [Function.update_apply, mutex, ite_self]
    · cases held.symm.trans holding
      exact .inr free

/-- Releasing the mutex of a record that agrees with its window keeps the outline. -/
theorem arbiterOutline_unlock {pool : Pool LockedArbiter ArbProc}
    (holds : arbiterOutline.Holds pool) {index : Nat} {proc : ArbProc}
    (present : pool.procs[index]? = some proc) {session : Nat}
    (held : proc.holds = some session) (agrees : pool.world.Agrees session) :
    arbiterOutline.Kept pool index (pool.world.unlock session) .returned := by
  refine ⟨⟨holds.shared.consistent, holds.shared.bounded, fun other unlocked => ?_⟩,
    ⟨trivial, nofun⟩, fun other second different found => ?_⟩
  · by_cases same : other = session
    · rw [same]
      exact agrees
    · refine holds.shared.agrees other ?_
      simp only [LockedArbiter.unlock] at unlocked
      rwa [Function.update_of_ne same] at unlocked
  · refine arbiterOutline_others holds present ?_ (fun own apart mutex _ => ?_)
      (fun _ taken => by cases taken) different found
    · exact Nat.le_refl _
    · have elsewhere : own ≠ session := fun same => apart (same ▸ held)
      exact ⟨⟨rfl, rfl, fun _ _ => id⟩, (Function.update_of_ne elsewhere _ _).trans mutex⟩

/-- The record of a resize whose `apply(true)` is next belongs to the resizing client. -/
theorem Arbiter.Performed.sized {arbiter next : Arbiter} {index : Nat} {cols rows : UInt16}
    {active : Bool} {readings : Readings}
    (done : arbiter.Performed (.resize index cols rows active readings) next
      (some (.sized true))) {session : Nat} {clientID : String}
    (made : arbiter.ConnOf index session clientID) :
    arbiter.ConnOf index session (next.heap session).ownerID := by
  obtain ⟨conn, found, rfl, rfl⟩ := made
  generalize applies : some (Applied.sized true) = applied at done
  cases done with
  | resize _ _ _ _ _ other next allowed later present resized =>
    cases found.symm.trans present
    have owner := Arbiter.ownerID_resize resized conn.session
    obtain ⟨size, rfl, same⟩ := Option.map_eq_some_iff.mp applies.symm
    cases same
    rw [if_pos ⟨rfl, rfl⟩] at owner
    exact ⟨conn, found, rfl, owner.symm⟩

/-- A decision keeps the outline: the call goes on to its `apply`, as the owner or as one that
changes nothing. -/
theorem arbiterOutline_decide {pool : Pool LockedArbiter ArbProc}
    (holds : arbiterOutline.Holds pool) {index place session : Nat} {cols rows : UInt16}
    {active : Bool} {readings : Readings}
    (present : pool.procs[index]? = some (.deciding place session cols rows active))
    {world : LockedArbiter} {after : ArbProc}
    (stepped : pool.world.critical (.resize place cols rows active readings)
      (afterDecision place session) = some (world, after)) :
    arbiterOutline.Kept pool index world after := by
  obtain ⟨arbiter, applied, done, rfl, rfl⟩ := LockedArbiter.critical_eq_some stepped
  obtain ⟨grows, -⟩ := done.bounded holds.shared.consistent holds.shared.bounded
  obtain ⟨⟨agrees, client, made⟩, locked⟩ := holds.here index _ present
  obtain ⟨mutex, older⟩ := locked session rfl
  have unclaimed : ∀ index now, ArbAction.resize place cols rows active readings ≠
      .claimInput index now := nofun
  have own : ∀ other clientID, pool.world.arbiter.ConnOf place other clientID →
      other = session := by
    rintro other clientID ⟨conn, found, rfl, -⟩
    obtain ⟨again, found', rfl, -⟩ := made
    cases found.symm.trans found'
    rfl
  have stays := afterDecision_holds place session applied
  refine ⟨?_, ⟨?_, ?_⟩, fun other second different found => ?_⟩
  · refine holds.shared.critical done unclaimed ?_
    rintro other free _ _ _ _ _ clientID ⟨⟩ - elsewhere
    rw [own other clientID elsewhere, mutex] at free
    cases free
  · by_cases sizes : applied = some (.sized true)
    · subst sizes
      exact done.connOf (done.sized made)
    · have keeps : pool.world.Keeps { pool.world with arbiter } session :=
        pool.world.keeps_critical done unclaimed older fun _ _ _ _ _ _ _ allowed =>
          absurd allowed sizes
      have kept := keeps.agrees agrees
      unfold afterDecision
      split
      · rename_i resizeWindow
        cases resizeWindow with
        | false => exact kept
        | true => exact absurd rfl sizes
      · exact kept
  · intro other held
    cases stays.symm.trans held
    exact ⟨mutex, Nat.lt_of_lt_of_le older grows⟩
  · refine arbiterOutline_others holds present grows (fun other apart busy older => ?_)
      (fun other held => .inl (stays.symm.trans held)) different found
    refine ⟨pool.world.keeps_critical done unclaimed older ?_, busy⟩
    rintro _ _ _ _ _ clientID ⟨⟩ - elsewhere
    exact apart (congrArg some (own other clientID elsewhere).symm)

theorem LockedArbiter.lastSized_push (world : LockedArbiter) (application : Application)
    (session : Nat) :
    ({ world with applied := world.applied ++ [application] } : LockedArbiter).lastSized session =
      if application.session = session ∧ application.resizeWindow = true then some application
      else world.lastSized session := by
  unfold LockedArbiter.lastSized
  rw [List.filter_append]
  by_cases sizes : application.session = session ∧ application.resizeWindow = true
  · rw [if_pos sizes]
    simp [sizes.1, sizes.2]
  · rw [if_neg sizes]
    have skipped :
        (decide (application.session = session) && application.resizeWindow) = false := by
      simpa using sizes
    simp [skipped]

/-- A call of `apply` keeps the outline. -/
theorem arbiterOutline_apply {pool : Pool LockedArbiter ArbProc}
    (holds : arbiterOutline.Holds pool) {index place session : Nat} {resizeWindow : Bool}
    (present : pool.procs[index]? = some (.applying place session resizeWindow)) :
    arbiterOutline.Kept pool index
      { pool.world with applied := pool.world.applied ++ [⟨session, place, resizeWindow⟩] }
      (.resizeUnlocking session) := by
  obtain ⟨stands, locked⟩ := holds.here index _ present
  have keeps : ∀ other, other ≠ session → pool.world.Keeps
      { pool.world with applied := pool.world.applied ++ [⟨session, place, resizeWindow⟩] }
      other := by
    intro other elsewhere
    refine ⟨rfl, ?_, fun _ _ => id⟩
    rw [LockedArbiter.lastSized_push, if_neg (fun sizes => elsewhere sizes.1.symm)]
  refine ⟨⟨holds.shared.consistent, holds.shared.bounded, fun other free => ?_⟩,
    ⟨?_, locked⟩, fun other second different found => ?_⟩
  · refine (keeps other ?_).agrees (holds.shared.agrees other free)
    rintro rfl
    have mutex := (locked other rfl).1
    rw [show pool.world.resizeMu other = false from free] at mutex
    cases mutex
  · show LockedArbiter.Agrees _ session
    unfold LockedArbiter.Agrees
    rw [LockedArbiter.lastSized_push]
    cases resizeWindow with
    | true => exact .inr ⟨_, if_pos ⟨rfl, rfl⟩, stands⟩
    | false =>
      rw [if_neg (fun sizes => Bool.false_ne_true sizes.2)]
      exact stands
  · refine arbiterOutline_others holds present ?_ (fun own apart mutex _ => ?_)
      (fun own held => .inl held) different found
    · exact Nat.le_refl _
    · exact ⟨keeps own fun same => apart (congrArg some same.symm), mutex⟩

/-- Every step of a call keeps the outline. -/
theorem arbiterOutline_step {pool : Pool LockedArbiter ArbProc}
    (holds : arbiterOutline.Holds pool) {index : Nat} {readings : Readings} {proc after : ArbProc}
    {world : LockedArbiter} (present : pool.procs[index]? = some proc)
    (stepped : stepArbiter pool.world proc readings = some (world, after)) :
    arbiterOutline.Kept pool index world after := by
  cases proc with
  | registering tmuxName clientID sizePolicy =>
    exact arbiterOutline_critical holds present (.register tmuxName clientID sizePolicy) rfl
      (fun _ => .returned) stepped (fun _ => rfl) fun _ _ => trivial
  | pruning alive =>
    exact arbiterOutline_critical holds present (.prune alive readings.human) rfl
      (fun _ => .returned) stepped (fun _ => rfl) fun _ _ => trivial
  | unregisterLocking place =>
    obtain ⟨conn, found, later⟩ := Option.bind_eq_some_iff.mp stepped
    obtain ⟨locked, taken, same⟩ := Option.bind_eq_some_iff.mp later
    cases same
    obtain ⟨-, rfl⟩ := LockedArbiter.lock_eq_some taken
    exact arbiterOutline_lock holds present
      (holds.shared.bounded conn (List.mem_of_getElem? found)) taken rfl id
  | unregistering place session =>
    exact arbiterOutline_critical holds present (.unregister place readings.human) rfl
      (fun _ => .unregisterUnlocking session) stepped (fun _ => rfl) fun _ => id
  | unregisterUnlocking session =>
    cases stepped
    exact arbiterOutline_unlock holds present rfl (holds.here index _ present).1
  | resizeLocking place cols rows active =>
    obtain ⟨conn, found, later⟩ := Option.bind_eq_some_iff.mp stepped
    obtain ⟨locked, taken, same⟩ := Option.bind_eq_some_iff.mp later
    cases same
    obtain ⟨-, rfl⟩ := LockedArbiter.lock_eq_some taken
    exact arbiterOutline_lock holds present
      (holds.shared.bounded conn (List.mem_of_getElem? found)) taken rfl
      fun agrees => ⟨agrees, conn.clientID, conn, found, rfl, rfl⟩
  | deciding place session cols rows active =>
    exact arbiterOutline_decide holds present stepped
  | applying place session resizeWindow =>
    cases stepped
    exact arbiterOutline_apply holds present
  | resizeUnlocking session =>
    cases stepped
    exact arbiterOutline_unlock holds present rfl (holds.here index _ present).1
  | returned => cases stepped

theorem arbiterOutline_run (clock : Int) {final : Pool LockedArbiter ArbProc}
    {moves : List (Move ArbCall Readings Empty)}
    (run : Run arbiterMachine.next anything (unlockedArbiter clock) moves final) :
    arbiterOutline.Holds final := by
  refine arbiterOutline.holds_of_run ?_ ?_ ?_ ?_ run
  · intro pool call holds _
    cases call <;> exact ⟨⟨trivial, nofun⟩, fun _ _ => ⟨nofun, fun _ _ => nofun⟩⟩
  · intro pool index readings proc world after holds _ present stepped
    exact arbiterOutline_step holds present stepped
  · intro _ event
    exact event.elim
  · refine arbiterOutline.holds_empty ⟨Arbiter.consistent_newArbiter clock, nofun, ?_⟩
    exact fun _ _ => .inl rfl

/-! ### Mutexes are held -/

/-- A critical section leaves the mutexes of the records. -/
theorem LockedArbiter.critical_mutexes {world next : LockedArbiter} {after : ArbProc}
    (action : ArbAction) (resume : Option Applied → ArbProc)
    (stepped : world.critical action resume = some (next, after)) {held : Option Nat}
    (same : ∀ applied, (resume applied).holds = held) :
    next.resizeMu = world.resizeMu ∧ after.holds = held := by
  obtain ⟨arbiter, applied, -, rfl, rfl⟩ := LockedArbiter.critical_eq_some stepped
  exact ⟨rfl, same applied⟩

/-- What one step does to the mutexes: it leaves them and what the call holds, takes one that was
free, or releases its own. -/
theorem stepArbiter_mutexes {world next : LockedArbiter} {proc after : ArbProc}
    {readings : Readings} (stepped : stepArbiter world proc readings = some (next, after)) :
    (next.resizeMu = world.resizeMu ∧ after.holds = proc.holds) ∨
    (∃ session, proc.holds = none ∧ after.holds = some session ∧
      next.resizeMu = Function.update world.resizeMu session true) ∨
    (∃ session, proc.holds = some session ∧
      next.resizeMu = Function.update world.resizeMu session false) := by
  cases proc with
  | registering tmuxName clientID sizePolicy =>
    exact .inl (LockedArbiter.critical_mutexes (.register tmuxName clientID sizePolicy)
      (fun _ => .returned) stepped fun _ => rfl)
  | pruning alive =>
    exact .inl (LockedArbiter.critical_mutexes (.prune alive readings.human)
      (fun _ => .returned) stepped fun _ => rfl)
  | unregisterLocking place =>
    obtain ⟨conn, found, later⟩ := Option.bind_eq_some_iff.mp stepped
    obtain ⟨locked, taken, same⟩ := Option.bind_eq_some_iff.mp later
    cases same
    obtain ⟨-, rfl⟩ := LockedArbiter.lock_eq_some taken
    exact .inr (.inl ⟨conn.session, rfl, rfl, rfl⟩)
  | unregistering place session =>
    exact .inl (LockedArbiter.critical_mutexes (.unregister place readings.human)
      (fun _ => .unregisterUnlocking session) stepped fun _ => rfl)
  | unregisterUnlocking session =>
    cases stepped
    exact .inr (.inr ⟨session, rfl, rfl⟩)
  | resizeLocking place cols rows active =>
    obtain ⟨conn, found, later⟩ := Option.bind_eq_some_iff.mp stepped
    obtain ⟨locked, taken, same⟩ := Option.bind_eq_some_iff.mp later
    cases same
    obtain ⟨-, rfl⟩ := LockedArbiter.lock_eq_some taken
    exact .inr (.inl ⟨conn.session, rfl, rfl, rfl⟩)
  | deciding place session cols rows active =>
    exact .inl (LockedArbiter.critical_mutexes (.resize place cols rows active readings)
      (afterDecision place session) stepped (afterDecision_holds place session))
  | applying place session resizeWindow =>
    cases stepped
    exact .inl ⟨rfl, rfl⟩
  | resizeUnlocking session =>
    cases stepped
    exact .inr (.inr ⟨session, rfl, rfl⟩)
  | returned => cases stepped

/-- A mutex that is taken is held by a call. -/
theorem mutexesHeld_run (clock : Int) {final : Pool LockedArbiter ArbProc}
    {moves : List (Move ArbCall Readings Empty)}
    (run : Run arbiterMachine.next anything (unlockedArbiter clock) moves final) :
    final.Owed (fun world session => world.resizeMu session = true)
      fun _ proc session => proc.holds = some session := by
  refine Machine.owed_of_run (fun _ locked => by cases locked) ?_ (fun _ event => event.elim) run
  intro pool index readings proc world after _ _ _ stepped session locked
  rcases stepArbiter_mutexes stepped with ⟨same, holds⟩ | ⟨taken, none, holds, mutexes⟩ |
    ⟨released, holds, mutexes⟩
  · rw [same] at locked
    by_cases own : proc.holds = some session
    · exact .inl (holds.trans own)
    · exact .inr ⟨locked, own, fun _ _ => id⟩
  · rw [mutexes] at locked
    by_cases same : session = taken
    · exact .inl (same ▸ holds)
    · rw [Function.update_of_ne same] at locked
      exact .inr ⟨locked, (fun own => by cases none.symm.trans own), fun _ _ => id⟩
  · rw [mutexes] at locked
    by_cases same : session = released
    · rw [same, Function.update_self] at locked
      cases locked
    · rw [Function.update_of_ne same] at locked
      exact .inr ⟨locked, (fun own => same (Option.some.inj (own.symm.trans holds))),
        fun _ _ => id⟩

/-! ### Ownership and the window -/

/-- The call is a resize of the record that holds its mutex. -/
def ArbProc.resizes (session : Nat) : ArbProc → Bool
  | .deciding _ record _ _ _ | .applying _ record _ | .resizeUnlocking record =>
    record = session
  | _ => false

/-- Whatever calls overlap, a record no resize is under way on belongs to the client of the
connection that last sized its window, if it belongs to anybody. -/
theorem owner_sized_the_window (clock : Int) {final : Pool LockedArbiter ArbProc}
    {moves : List (Move ArbCall Readings Empty)}
    (run : Run arbiterMachine.next anything (unlockedArbiter clock) moves final)
    (session : Nat) (quiet : ∀ proc ∈ final.procs, proc.resizes session = false)
    (owned : (final.world.arbiter.heap session).ownerID ≠ "") :
    ∃ application conn, final.world.lastSized session = some application ∧
      final.world.arbiter.conns[application.index]? = some conn ∧ conn.session = session ∧
      conn.clientID = (final.world.arbiter.heap session).ownerID := by
  have holds := arbiterOutline_run clock run
  have agrees : final.world.Agrees session := by
    by_cases locked : final.world.resizeMu session = true
    · -- The holder is an unregister, which leaves the owner and the window.
      obtain ⟨proc, member, held⟩ := mutexesHeld_run clock run session locked
      obtain ⟨index, present⟩ := List.mem_iff_getElem?.mp member
      have stands := (holds.here index proc present).1
      have still := quiet proc member
      cases proc with
      | unregistering place record =>
        cases held
        exact stands
      | unregisterUnlocking record =>
        cases held
        exact stands
      | deciding place record cols rows active =>
        cases held
        simp [ArbProc.resizes] at still
      | applying place record resizeWindow =>
        cases held
        simp [ArbProc.resizes] at still
      | resizeUnlocking record =>
        cases held
        simp [ArbProc.resizes] at still
      | _ => cases held
    · exact holds.shared.agrees session (Bool.eq_false_iff.mpr locked)
  rcases agrees with nobody | ⟨application, last, conn, found, record, client⟩
  · exact absurd nobody owned
  · exact ⟨application, conn, last, found, record, client⟩

/-- Two clients resize one session; the first has finished, the second waits for the mutex. -/
def deskBeforeLaptop : List (Move ArbCall Readings Empty) :=
  [.arrive (.register "mm-1" "desk" .followInput), .advance 0 (Readings.at 0),
    .arrive (.register "mm-1" "laptop" .followInput), .advance 1 (Readings.at 0),
    .arrive (.resize 0 80 24 true), .arrive (.resize 1 120 40 true), .advance 2 (Readings.at 0),
    .advance 2 (Readings.at 0), .advance 2 (Readings.at 0), .advance 2 (Readings.at 0)]

theorem desk_sized_the_window :
    ∃ final, exec arbiterMachine.next (unlockedArbiter 0) deskBeforeLaptop = some final ∧
      (final.world.arbiter.heap 0).ownerID = "desk" ∧
      ∃ application conn, final.world.lastSized 0 = some application ∧
        final.world.arbiter.conns[application.index]? = some conn ∧ conn.session = 0 ∧
        conn.clientID = (final.world.arbiter.heap 0).ownerID := by
  refine ⟨_, rfl, rfl, ?_⟩
  have run : Run arbiterMachine.next anything (unlockedArbiter 0) deskBeforeLaptop _ :=
    Run.of_exec_anything rfl
  exact owner_sized_the_window 0 run 0 (by decide) (by decide)

end Multimux
