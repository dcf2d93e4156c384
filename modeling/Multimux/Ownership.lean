/-
This file states who may take over the window of a session. The guard of an
ordinary resize reads a counter, the instant at which the owner left and the
last gesture of the asking client; each of these is tied here to the past of
the run: the owner has had no registered connection since that instant, and the
gesture was made. An owner therefore changes only by an explicit claim of a
registered connection, by an inheritance the past entitles to, or with the
record itself.
-/

import Multimux.Arbiter

namespace Multimux

/-! ### The past of a run of the arbiter -/

/-- The client has a connection registered to the session. -/
def Arbiter.Attached (arbiter : Arbiter) (tmuxName clientID : String) : Prop :=
  ∃ conn ∈ arbiter.conns, conn.attaches tmuxName clientID = true

/-- The client has had no connection registered to the session since the instant. -/
def AbsentSince (clock : Int) (history : List ArbAction) (tmuxName clientID : String)
    (since : Int) : Prop :=
  Since Arbiter.step anything (newArbiter clock) (fun arbiter => arbiter.clock = since)
    (fun arbiter => ¬ arbiter.Attached tmuxName clientID) history

/-- A gesture: an active resize or a claim by a registered connection of the client, on any
session and under either policy. -/
def Gesture (clientID : String) (seen : Int) (arbiter : Arbiter) : ArbAction → Prop
  | .resize index _ _ active readings => active = true ∧ readings.human = seen ∧
      ∃ conn, arbiter.conns[index]? = some conn ∧ conn.unregistered = false ∧
        conn.clientID = clientID
  | .claimInput index now => now = seen ∧
      ∃ conn, arbiter.conns[index]? = some conn ∧ conn.unregistered = false ∧
        conn.clientID = clientID
  | _ => False

/-- The client made a gesture at the instant. -/
def GestureAt (clock : Int) (history : List ArbAction) (clientID : String) (seen : Int) : Prop :=
  Once Arbiter.step anything (newArbiter clock) (Gesture clientID seen) history

/-- What entitles a client to the window of an owner who is gone, at the readings of its
resize: the owner's absence for the whole grace period and a gesture recent enough. -/
structure OwnerGone (clock : Int) (history : List ArbAction) (tmuxName owner clientID : String)
    (readings : Readings) : Prop where
  absent : ∃ left, ownerGrace ≤ readings.grace - left ∧
    AbsentSince clock history tmuxName owner left
  present : ∃ seen, readings.presence - seen ≤ presenceWindow ∧
    GestureAt clock history clientID seen

/-- The steps that change the owner of a session. -/
inductive OwnerChange (clock : Int) (history : List ArbAction) (arbiter next : Arbiter)
    (tmuxName : String) : ArbAction → Prop
  | activeResize (index : Nat) (cols rows : UInt16) (readings : Readings) (conn : ArbConn)
      (present : arbiter.conns[index]? = some conn)
      (attaches : conn.attaches tmuxName (next.ownerOf tmuxName) = true) :
      OwnerChange clock history arbiter next tmuxName (.resize index cols rows true readings)
  | claimInput (index : Nat) (now : Int) (conn : ArbConn)
      (present : arbiter.conns[index]? = some conn)
      (attaches : conn.attaches tmuxName (next.ownerOf tmuxName) = true)
      (policy : conn.sizePolicy = .followInput) :
      OwnerChange clock history arbiter next tmuxName (.claimInput index now)
  | unowned (index : Nat) (cols rows : UInt16) (readings : Readings) (conn : ArbConn)
      (present : arbiter.conns[index]? = some conn)
      (attaches : conn.attaches tmuxName (next.ownerOf tmuxName) = true)
      (policy : conn.sizePolicy = .followInput) (free : arbiter.ownerOf tmuxName = "") :
      OwnerChange clock history arbiter next tmuxName (.resize index cols rows false readings)
  | ownerGone (index : Nat) (cols rows : UInt16) (readings : Readings) (conn : ArbConn)
      (present : arbiter.conns[index]? = some conn)
      (attaches : conn.attaches tmuxName (next.ownerOf tmuxName) = true)
      (policy : conn.sizePolicy = .followInput)
      (gone : OwnerGone clock history tmuxName (arbiter.ownerOf tmuxName) conn.clientID readings) :
      OwnerChange clock history arbiter next tmuxName (.resize index cols rows false readings)
  | pruned (alive : String → Bool) (now : Int) (dead : alive tmuxName = false)
      (idle : ∀ conn ∈ arbiter.conns, conn.registeredTo tmuxName = false)
      (dropped : next.sessions tmuxName = none) :
      OwnerChange clock history arbiter next tmuxName (.prune alive now)

/-- An ordinary resize is entitled to the window it does not own: a registered follow-input
connection, and either nobody owns the session or its owner is gone. -/
structure Entitled (clock : Int) (history : List ArbAction) (arbiter : Arbiter) (conn : ArbConn)
    (readings : Readings) : Prop where
  registered : conn.unregistered = false
  policy : conn.sizePolicy = .followInput
  inherits : arbiter.ownerOf conn.tmuxName = "" ∨
    OwnerGone clock history conn.tmuxName (arbiter.ownerOf conn.tmuxName) conn.clientID readings

/-! ### Owners -/

theorem Arbiter.ownerOf_eq {arbiter : Arbiter} {tmuxName : String} {session : Nat}
    (stored : arbiter.sessions tmuxName = some session) :
    arbiter.ownerOf tmuxName = (arbiter.heap session).ownerID := by
  unfold Arbiter.ownerOf
  rw [stored]

/-- A change of a record that keeps its owner changes no owner. -/
theorem Arbiter.ownerOf_modify (arbiter : Arbiter) (session : Nat)
    (change : ArbSession → ArbSession)
    (keeps : (change (arbiter.heap session)).ownerID = (arbiter.heap session).ownerID)
    (tmuxName : String) : (arbiter.modify session change).ownerOf tmuxName =
      arbiter.ownerOf tmuxName := by
  unfold Arbiter.ownerOf
  simp only [Arbiter.modify]
  split
  · rename_i other _
    rw [Function.update_apply]
    split
    · rename_i same
      rw [same, keeps]
    · rfl
  · rfl

/-- A claim changes the owner of its own session only. -/
theorem Arbiter.ownerOf_claim {arbiter : Arbiter} (consistent : arbiter.Consistent)
    {claimed : String} {session : Nat} (stored : arbiter.sessions claimed = some session)
    (clientID tmuxName : String) :
    (arbiter.modify session (·.claim clientID)).ownerOf tmuxName =
      if tmuxName = claimed then clientID else arbiter.ownerOf tmuxName := by
  unfold Arbiter.ownerOf
  simp only [Arbiter.modify]
  by_cases same : tmuxName = claimed
  · subst same
    rw [if_pos rfl, stored]
    simp [ArbSession.claim]
  · rw [if_neg same]
    split
    · rename_i other found
      have different : other ≠ session := by
        rintro rfl
        exact same (consistent.unshared tmuxName claimed other found stored)
      rw [Function.update_of_ne different]
    · rfl

@[simp]
theorem Arbiter.ownerOf_asked (arbiter : Arbiter) (index : Nat) (conn : ArbConn)
    (cols rows : UInt16) (active : Bool) (now : Int) (tmuxName : String) :
    (arbiter.asked index conn cols rows active now).ownerOf tmuxName =
      arbiter.ownerOf tmuxName := by
  unfold Arbiter.ownerOf
  rw [Arbiter.asked_sessions, Arbiter.asked_heap]

theorem Arbiter.ownerOf_register {arbiter : Arbiter} (consistent : arbiter.Consistent)
    (registered clientID : String) (sizePolicy : SizePolicy) (tmuxName : String) :
    (arbiter.register registered clientID sizePolicy).ownerOf tmuxName =
      arbiter.ownerOf tmuxName := by
  have found : (arbiter.find registered).1.ownerOf tmuxName = arbiter.ownerOf tmuxName := by
    unfold Arbiter.find
    split
    · rfl
    · rename_i missing
      unfold Arbiter.ownerOf
      simp only [Function.update_apply]
      by_cases same : tmuxName = registered
      · rw [if_pos same, same, missing]
        simp [newSession]
      · rw [if_neg same]
        split
        · rename_i session stored
          rw [if_neg (Nat.ne_of_lt (consistent.below tmuxName session stored))]
        · rfl
  rw [← found]
  exact Arbiter.ownerOf_modify (arbiter.find registered).1 (arbiter.find registered).2
    (·.join clientID) rfl tmuxName

@[simp]
theorem ArbSession.ownerID_leave (record : ArbSession) (clientID : String) (now : Int) :
    (record.leave clientID now).ownerID = record.ownerID := by
  unfold ArbSession.leave
  dsimp only
  split <;> rfl

theorem Arbiter.ownerOf_unregister (arbiter : Arbiter) (index : Nat) (conn : ArbConn) (now : Int)
    (tmuxName : String) :
    (arbiter.unregister index conn now).ownerOf tmuxName = arbiter.ownerOf tmuxName := by
  unfold Arbiter.unregister
  split
  · rfl
  · dsimp only
    split
    · rfl
    · exact Arbiter.ownerOf_modify (arbiter.setConn index _) conn.session _
        (ArbSession.ownerID_leave _ conn.clientID now) tmuxName

/-! ### What the record of an absent owner remembers -/

theorem Arbiter.attached_iff {arbiter : Arbiter} {tmuxName clientID : String} :
    arbiter.Attached tmuxName clientID ↔
      0 < arbiter.conns.countP (ArbConn.attaches tmuxName clientID) :=
  List.countP_pos_iff.symm

theorem Arbiter.Consistent.attached_iff_live {arbiter : Arbiter} (consistent : arbiter.Consistent)
    {tmuxName : String} {session : Nat} (stored : arbiter.sessions tmuxName = some session)
    (clientID : String) : arbiter.Attached tmuxName clientID ↔
      0 < (arbiter.heap session).live clientID := by
  rw [Arbiter.attached_iff, consistent.live tmuxName session clientID stored, Int.natCast_pos]

/-- The owner of the record, the instant it left and its absence are those of an earlier
state. -/
structure Arbiter.Remembers (arbiter next : Arbiter) (tmuxName : String) (session : Nat) :
    Prop where
  stored : arbiter.sessions tmuxName = some session
  ownerID : (next.heap session).ownerID = (arbiter.heap session).ownerID
  ownerLeftAt : (next.heap session).ownerLeftAt = (arbiter.heap session).ownerLeftAt
  absent : ¬ arbiter.Attached tmuxName (next.heap session).ownerID

@[simp]
theorem Arbiter.find_conns (arbiter : Arbiter) (registered : String) :
    (arbiter.find registered).1.conns = arbiter.conns := by
  unfold Arbiter.find
  split <;> rfl

/-- `Register` finds the record as it was, or makes one that nobody owns. -/
theorem Arbiter.find_record {arbiter : Arbiter} (consistent : arbiter.Consistent)
    {registered tmuxName : String} {session : Nat}
    (stored : (arbiter.find registered).1.sessions tmuxName = some session) :
    ((arbiter.find registered).1.heap session).ownerID = "" ∨
      (arbiter.sessions tmuxName = some session ∧
        (arbiter.find registered).1.heap session = arbiter.heap session) := by
  unfold Arbiter.find at stored ⊢
  split at stored
  · exact .inr ⟨stored, rfl⟩
  · dsimp only at stored ⊢
    by_cases same : tmuxName = registered
    · rw [same, Function.update_self] at stored
      cases stored
      rw [Function.update_self]
      exact .inl rfl
    · rw [Function.update_of_ne same] at stored
      have older := Nat.ne_of_lt (consistent.below tmuxName session stored)
      exact .inr ⟨stored, Function.update_of_ne older _ _⟩

/-- A change of a record that keeps the owner and its leave keeps them for every record. -/
theorem Arbiter.modify_keeps (arbiter : Arbiter) (changed : Nat) (change : ArbSession → ArbSession)
    (ownerID : ∀ record, (change record).ownerID = record.ownerID)
    (ownerLeftAt : ∀ record, (change record).ownerLeftAt = record.ownerLeftAt) (session : Nat) :
    ((arbiter.modify changed change).heap session).ownerID = (arbiter.heap session).ownerID ∧
      ((arbiter.modify changed change).heap session).ownerLeftAt =
        (arbiter.heap session).ownerLeftAt := by
  simp only [Arbiter.modify, Function.update_apply]
  split
  · rename_i same
    rw [same]
    exact ⟨ownerID _, ownerLeftAt _⟩
  · exact ⟨rfl, rfl⟩

theorem Arbiter.Consistent.remembers_register {arbiter : Arbiter} (consistent : arbiter.Consistent)
    {registered clientID : String} {sizePolicy : SizePolicy} {tmuxName : String} {session : Nat}
    (stored : (arbiter.register registered clientID sizePolicy).sessions tmuxName = some session)
    (absent : ¬ (arbiter.register registered clientID sizePolicy).Attached tmuxName
      ((arbiter.register registered clientID sizePolicy).heap session).ownerID) :
    ((arbiter.register registered clientID sizePolicy).heap session).ownerID = "" ∨
      arbiter.Remembers (arbiter.register registered clientID sizePolicy) tmuxName session := by
  obtain ⟨ownerID, ownerLeftAt⟩ := (arbiter.find registered).1.modify_keeps
    (arbiter.find registered).2 (·.join clientID) (fun _ => rfl) (fun _ => rfl) session
  rcases Arbiter.find_record consistent stored with free | ⟨found, same⟩
  · exact .inl (ownerID.trans free)
  · rw [same] at ownerID ownerLeftAt
    refine .inr ⟨found, ownerID, ownerLeftAt, ?_⟩
    rintro ⟨conn, member, attaches⟩
    rw [← Arbiter.find_conns arbiter registered] at member
    exact absent ⟨conn, List.mem_append_left _ member, attaches⟩

/-- After a connection left, an owner with no connection has left now or had none before. -/
theorem ArbSession.leave_cases (record : ArbSession) (clientID : String) (now : Int)
    (absent : ¬ 0 < (record.leave clientID now).live record.ownerID) :
    (record.leave clientID now).ownerLeftAt = now ∨
      (record.leave clientID now).ownerLeftAt = record.ownerLeftAt ∧
        ¬ 0 < record.live record.ownerID := by
  unfold ArbSession.leave at absent ⊢
  dsimp only at absent ⊢
  by_cases last : record.live clientID - 1 ≤ 0 <;>
    by_cases same : record.ownerID = clientID
  · rw [if_pos last, if_pos same]
    exact .inl rfl
  · rw [if_pos last] at absent ⊢
    dsimp only at absent
    rw [Function.update_of_ne same] at absent
    exact .inr ⟨if_neg same, absent⟩
  · rw [if_neg last] at absent
    dsimp only at absent
    rw [same, Function.update_self] at absent
    omega
  · rw [if_neg last] at absent ⊢
    dsimp only at absent
    rw [Function.update_of_ne same] at absent
    exact .inr ⟨rfl, absent⟩

/-- When a connection leaves, either the owner's absence starts now or nothing changed for an
absent owner. -/
theorem Arbiter.Consistent.remembers_unregister {arbiter : Arbiter}
    (consistent : arbiter.Consistent) {index : Nat} {conn : ArbConn} {now : Int}
    (present : arbiter.conns[index]? = some conn) {tmuxName : String} {session : Nat}
    (stored : (arbiter.unregister index conn now).sessions tmuxName = some session)
    (absent : ¬ (arbiter.unregister index conn now).Attached tmuxName
      ((arbiter.unregister index conn now).heap session).ownerID) :
    ((arbiter.unregister index conn now).heap session).ownerLeftAt = now ∨
      arbiter.Remembers (arbiter.unregister index conn now) tmuxName session := by
  have after := consistent.unregister present now
  have live := after.attached_iff_live stored
  rw [live] at absent
  cases counted : conn.unregistered with
  | true =>
    have same : arbiter.unregister index conn now = arbiter := by
      unfold Arbiter.unregister
      rw [if_pos counted]
    rw [same] at stored absent ⊢
    exact .inr ⟨stored, rfl, rfl, by rwa [consistent.attached_iff_live stored]⟩
  | false =>
    have current := consistent.current conn (List.mem_of_getElem? present) counted
    have left : arbiter.unregister index conn now =
        (arbiter.setConn index { conn with unregistered := true }).modify conn.session
          (·.leave conn.clientID now) := by
      unfold Arbiter.unregister
      rw [if_neg (by simp [counted])]
      exact if_neg (not_not.mpr current)
    rw [left] at stored absent ⊢
    have before : arbiter.sessions tmuxName = some session := stored
    by_cases same : session = conn.session
    · have record : ((arbiter.setConn index { conn with unregistered := true }).modify conn.session
          (·.leave conn.clientID now)).heap session =
            (arbiter.heap session).leave conn.clientID now := by
        rw [same]
        exact Function.update_self ..
      have owner := (arbiter.heap session).ownerID_leave conn.clientID now
      rw [record, owner] at absent
      rcases (arbiter.heap session).leave_cases conn.clientID now absent with
        leaves | ⟨earlier, gone⟩
      · exact .inl (record ▸ leaves)
      · refine .inr ⟨before, record ▸ owner, record ▸ earlier, ?_⟩
        rw [consistent.attached_iff_live before, record, owner]
        exact gone
    · have record : ((arbiter.setConn index { conn with unregistered := true }).modify conn.session
          (·.leave conn.clientID now)).heap session = arbiter.heap session :=
        Function.update_of_ne same _ _
      rw [record] at absent
      refine .inr ⟨before, by rw [record], by rw [record], ?_⟩
      rwa [consistent.attached_iff_live before, record]

theorem Arbiter.attached_asked (arbiter : Arbiter) {index : Nat} {conn : ArbConn}
    (present : arbiter.conns[index]? = some conn) (cols rows : UInt16) (active : Bool) (now : Int)
    (tmuxName clientID : String) :
    (arbiter.asked index conn cols rows active now).Attached tmuxName clientID ↔
      arbiter.Attached tmuxName clientID := by
  have conns : (arbiter.asked index conn cols rows active now).conns =
      arbiter.conns.set index { conn with cols, rows } := by
    unfold Arbiter.asked
    split <;> rfl
  rw [Arbiter.attached_iff, Arbiter.attached_iff, conns,
    countP_set_same (ArbConn.attaches tmuxName clientID) { conn with cols, rows } present rfl]

/-- A claim gives the session an owner who is attached, and leaves every other record. -/
theorem Arbiter.Consistent.claim_record {arbiter : Arbiter} (consistent : arbiter.Consistent)
    {conn : ArbConn} (current : arbiter.sessions conn.tmuxName = some conn.session)
    (attached : arbiter.Attached conn.tmuxName conn.clientID) {tmuxName : String} {session : Nat}
    (stored : arbiter.sessions tmuxName = some session)
    (absent : ¬ arbiter.Attached tmuxName
      ((arbiter.modify conn.session (·.claim conn.clientID)).heap session).ownerID) :
    (arbiter.modify conn.session (·.claim conn.clientID)).heap session =
      arbiter.heap session := by
  refine Function.update_of_ne ?_ _ _
  rintro rfl
  cases consistent.unshared tmuxName conn.tmuxName conn.session stored current
  refine absent ?_
  simpa [Arbiter.modify, ArbSession.claim] using attached

/-- The owner a record has is nobody, or attached, or has left just now, or is the one of
before, who was no more attached then. -/
theorem Arbiter.Consistent.remembers {arbiter next : Arbiter} {action : ArbAction}
    {applied : Option Applied} (consistent : arbiter.Consistent)
    (done : arbiter.Performed action next applied) {tmuxName : String} {session : Nat}
    (stored : next.sessions tmuxName = some session)
    (absent : ¬ next.Attached tmuxName (next.heap session).ownerID) :
    (next.heap session).ownerID = "" ∨ (next.heap session).ownerLeftAt = next.clock ∨
      arbiter.Remembers next tmuxName session := by
  cases done with
  | register registered clientID sizePolicy =>
    exact (consistent.remembers_register stored absent).imp_right .inr
  | unregister index now conn later present =>
    have clock : ((arbiter.readClock now).unregister index conn now).clock = now :=
      ((arbiter.readClock now).unregister_frame index conn now).2.1
    rw [clock]
    have remembers := (consistent.readClock now).remembers_unregister present stored absent
    refine .inr (remembers.imp_right ?_)
    exact fun remembers =>
      ⟨remembers.stored, remembers.ownerID, remembers.ownerLeftAt, remembers.absent⟩
  | prune alive now later =>
    exact .inr (.inr ⟨(Option.filter_eq_some_iff.mp stored).1, rfl, rfl, absent⟩)
  | resize index cols rows active readings conn next allowed later present resized =>
    have ready := consistent.readClock readings.presence
    have attached := (arbiter.readClock readings.presence).attached_asked present cols rows active
      readings.human
    rcases Arbiter.resize_cases resized with ⟨rfl, -, -⟩ | ⟨-, -, -, -, rfl, -⟩ |
      ⟨counted, current, -, rfl, -⟩
    · exact .inr (.inr ⟨stored, rfl, rfl, absent⟩)
    · rw [Arbiter.asked_sessions] at stored
      rw [attached] at absent
      refine .inr (.inr ⟨stored, ?_, ?_, absent⟩) <;> rw [Arbiter.asked_heap] <;> rfl
    · have here : ((arbiter.readClock readings.presence).asked index conn cols rows active
          readings.human).Attached conn.tmuxName conn.clientID := by
        rw [attached]
        exact ⟨conn, List.mem_of_getElem? present,
          by simp [ArbConn.attaches, ArbConn.registeredTo, counted]⟩
      rw [← Arbiter.asked_sessions _ index conn cols rows active readings.human] at current
      have record := (ready.asked present cols rows active readings.human).claim_record current here
        stored absent
      have before : (arbiter.readClock readings.presence).sessions tmuxName = some session := by
        simpa [Arbiter.modify] using stored
      refine .inr (.inr ⟨before, ?_, ?_, ?_⟩)
      · rw [record, Arbiter.asked_heap]
        rfl
      · rw [record, Arbiter.asked_heap]
        rfl
      · exact fun earlier => absent ((attached _ _).mpr earlier)
  | claimInput index now conn next dims later present claimed =>
    have ready := (consistent.readClock now).sawHuman conn.clientID now
    rcases Arbiter.claimInput_cases claimed with ⟨rfl, -⟩ | ⟨counted, current, rfl | ⟨-, rfl⟩⟩
    · exact .inr (.inr ⟨stored, rfl, rfl, absent⟩)
    · exact .inr (.inr ⟨stored, rfl, rfl, absent⟩)
    · have here : ((arbiter.readClock now).sawHuman conn.clientID now).Attached conn.tmuxName
          conn.clientID :=
        ⟨conn, List.mem_of_getElem? present,
          by simp [ArbConn.attaches, ArbConn.registeredTo, counted]⟩
      have record := ready.claim_record current here stored absent
      exact .inr (.inr ⟨stored, by rw [record]; rfl, by rw [record]; rfl, absent⟩)

/-! ### The invariant -/

/-- The owner of every session is nobody, attached, or absent since the instant on record, and
every recorded gesture was made. -/
structure Arbiter.PastRecorded (clock : Int) (history : List ArbAction) (arbiter : Arbiter) :
    Prop where
  owner : ∀ tmuxName session, arbiter.sessions tmuxName = some session →
    (arbiter.heap session).ownerID = "" ∨
      arbiter.Attached tmuxName (arbiter.heap session).ownerID ∨
      AbsentSince clock history tmuxName (arbiter.heap session).ownerID
        (arbiter.heap session).ownerLeftAt
  gesture : ∀ clientID seen, arbiter.lastHuman clientID = some seen →
    GestureAt clock history clientID seen

/-- A call records a gesture only when it is one. -/
theorem Arbiter.lastHuman_performed {arbiter next : Arbiter} {action : ArbAction}
    {applied : Option Applied} (done : arbiter.Performed action next applied) {clientID : String}
    {seen : Int} (recorded : next.lastHuman clientID = some seen) :
    arbiter.lastHuman clientID = some seen ∨ Gesture clientID seen arbiter action := by
  cases done with
  | register registered client sizePolicy =>
    refine .inl ?_
    have same : (arbiter.find registered).1.lastHuman = arbiter.lastHuman := by
      unfold Arbiter.find
      split <;> rfl
    rw [← same]
    exact recorded
  | unregister index now conn later present =>
    refine .inl ?_
    rw [← recorded, (Arbiter.unregister_frame _ index conn now).1]
    rfl
  | prune alive now later => exact .inl (Option.filter_eq_some_iff.mp recorded).1
  | resize index cols rows active readings conn next allowed later present resized =>
    have asked : ∀ known : Arbiter, known.lastHuman = arbiter.lastHuman →
        conn.unregistered = false →
        (known.asked index conn cols rows active readings.human).lastHuman clientID = some seen →
        arbiter.lastHuman clientID = some seen ∨
          Gesture clientID seen arbiter (.resize index cols rows active readings) := by
      intro known same counted recorded
      unfold Arbiter.asked at recorded
      split at recorded
      · rename_i gestures
        simp only [Arbiter.sawHuman, Function.update_apply] at recorded
        split at recorded
        · rename_i client
          cases recorded
          exact .inr ⟨gestures, rfl, conn, present, counted, client.symm⟩
        · exact .inl (same ▸ recorded)
      · exact .inl (same ▸ recorded)
    rcases Arbiter.resize_cases resized with ⟨rfl, -, -⟩ | ⟨counted, -, -, -, rfl, -⟩ |
      ⟨counted, -, -, rfl, -⟩
    · exact .inl recorded
    · exact asked (arbiter.readClock readings.presence) rfl counted recorded
    · exact asked (arbiter.readClock readings.presence) rfl counted recorded
  | claimInput index now conn next dims later present claimed =>
    have saw : conn.unregistered = false →
        ((arbiter.readClock now).sawHuman conn.clientID now).lastHuman clientID = some seen →
        arbiter.lastHuman clientID = some seen ∨
          Gesture clientID seen arbiter (.claimInput index now) := by
      intro counted recorded
      simp only [Arbiter.sawHuman, Function.update_apply] at recorded
      split at recorded
      · rename_i client
        cases recorded
        exact .inr ⟨rfl, conn, present, counted, client.symm⟩
      · exact .inl recorded
    rcases Arbiter.claimInput_cases claimed with ⟨rfl, -⟩ | ⟨counted, -, rfl | ⟨-, rfl⟩⟩
    · exact .inl recorded
    · exact saw counted recorded
    · exact saw counted recorded

/-- In every run the past is recorded. -/
theorem Arbiter.pastRecorded_run {clock : Int} {history : List ArbAction} {arbiter : Arbiter}
    (run : Run Arbiter.step anything (newArbiter clock) history arbiter) :
    arbiter.PastRecorded clock history := by
  refine run.history (fun history arbiter => arbiter.PastRecorded clock history)
    ⟨by simp [newArbiter], by simp [newArbiter]⟩ ?_
  intro history arbiter action next before recorded _ taken
  have consistent := Arbiter.consistent_run before
  have run := before.snoc trivial taken
  obtain ⟨⟨after, applied⟩, done, rfl⟩ := Option.map_eq_some_iff.mp taken
  have performed := Arbiter.performed_of_perform done
  constructor
  · intro tmuxName session stored
    by_cases attached : after.Attached tmuxName (after.heap session).ownerID
    · exact .inr (.inl attached)
    · rcases consistent.remembers performed stored attached with free | leaves | remembers
      · exact .inl free
      · exact .inr (.inr (Since.now run leaves.symm attached))
      · rcases recorded.owner tmuxName session remembers.stored with free | still | gone
        · exact .inl (remembers.ownerID.trans free)
        · rw [← remembers.ownerID] at still
          exact absurd still remembers.absent
        · rw [← remembers.ownerID, ← remembers.ownerLeftAt] at gone
          exact .inr (.inr (Since.extend gone run attached))
  · intro clientID seen known
    rcases Arbiter.lastHuman_performed performed known with earlier | gesture
    · exact Once.extend (recorded.gesture clientID seen earlier) action
    · exact Once.now before gesture

/-- What the guard of an ordinary resize has found when it lets a client pass that is not the
owner. -/
theorem Arbiter.entitled_of_mayResize {clock : Int} {history : List ArbAction} {arbiter : Arbiter}
    (run : Run Arbiter.step anything (newArbiter clock) history arbiter) {conn : ArbConn}
    {readings : Readings} (registered : conn.unregistered = false)
    (policy : conn.sizePolicy = .followInput)
    (current : arbiter.sessions conn.tmuxName = some conn.session)
    (foreign : conn.clientID ≠ arbiter.ownerOf conn.tmuxName)
    (may : arbiter.mayResize conn readings = true) :
    Entitled clock history arbiter conn readings := by
  refine ⟨registered, policy, ?_⟩
  have owner := Arbiter.ownerOf_eq current
  have consistent := Arbiter.consistent_run run
  have past := Arbiter.pastRecorded_run run
  unfold Arbiter.mayResize at may
  dsimp only at may
  rw [← owner] at may
  split at may
  · rename_i own
    exact own.imp_right fun same => absurd same.symm foreign
  · rename_i taken
    split at may
    · cases may
    · rename_i away
      split at may
      · cases may
      · rename_i grace
        refine .inr ⟨?_, ?_⟩
        · rw [← consistent.attached_iff_live current] at away
          rcases past.owner _ _ current with free | attached | absent
          · exact absurd (.inl (owner.trans free)) taken
          · rw [← owner] at attached
            exact absurd attached away
          · rw [← owner] at absent
            exact ⟨_, Int.not_lt.mp grace, absent⟩
        · unfold Arbiter.present at may
          split at may
          · rename_i seen found
            exact ⟨seen, of_decide_eq_true may, past.gesture _ _ found⟩
          · cases may

/-! ### Owner protection -/

/-- Pruning changes an owner only by dropping the record, which then has no registered
connection and is not alive. -/
theorem Arbiter.ownerOf_prune {arbiter : Arbiter} (consistent : arbiter.Consistent)
    {alive : String → Bool} {now : Int} {tmuxName : String}
    (changed : (arbiter.prune alive now).ownerOf tmuxName ≠ arbiter.ownerOf tmuxName) :
    alive tmuxName = false ∧ (∀ conn ∈ arbiter.conns, conn.registeredTo tmuxName = false) ∧
      (arbiter.prune alive now).sessions tmuxName = none := by
  cases stored : arbiter.sessions tmuxName with
  | none =>
    refine absurd ?_ changed
    simp [Arbiter.ownerOf, Arbiter.prune, stored]
  | some session =>
    by_cases stale : (arbiter.heap session).refs ≤ 0 ∧ alive tmuxName = false
    · have refs := consistent.refs tmuxName session stored
      have idle : arbiter.conns.countP (ArbConn.registeredTo tmuxName) = 0 := by omega
      refine ⟨stale.2, fun conn member => ?_, ?_⟩
      · exact Bool.eq_false_iff.mpr (List.countP_eq_zero.mp idle conn member)
      · simp [Arbiter.prune, stored, stale]
    · have kept : (arbiter.prune alive now).sessions tmuxName = some session :=
        Option.filter_eq_some_iff.mpr ⟨stored, by rw [decide_eq_false stale]; rfl⟩
      refine absurd ?_ changed
      rw [Arbiter.ownerOf_eq kept, Arbiter.ownerOf_eq stored]
      rfl

/-- An owner changes only as `OwnerChange` says. -/
theorem Arbiter.ownerChange_of_perform {clock : Int} {history : List ArbAction}
    {arbiter next : Arbiter} {action : ArbAction} {applied : Option Applied}
    (run : Run Arbiter.step anything (newArbiter clock) history arbiter)
    (done : arbiter.Performed action next applied) {tmuxName : String}
    (changed : next.ownerOf tmuxName ≠ arbiter.ownerOf tmuxName) :
    OwnerChange clock history arbiter next tmuxName action := by
  have consistent := Arbiter.consistent_run run
  cases done with
  | register registered clientID sizePolicy =>
    exact absurd (Arbiter.ownerOf_register consistent registered clientID sizePolicy tmuxName)
      changed
  | unregister index now conn later present =>
    exact absurd (Arbiter.ownerOf_unregister (arbiter.readClock now) index conn now tmuxName)
      changed
  | prune alive now later =>
    obtain ⟨dead, idle, dropped⟩ := Arbiter.ownerOf_prune (consistent.readClock now) changed
    exact .pruned alive now dead idle dropped
  | resize index cols rows active readings conn next allowed later present resized =>
    rcases Arbiter.resize_cases resized with ⟨rfl, -, -⟩ | ⟨-, -, -, -, rfl, -⟩ |
      ⟨counted, current, claims, rfl, -⟩
    · exact absurd rfl changed
    · exact absurd (Arbiter.ownerOf_asked ..) changed
    · have asked := (consistent.readClock readings.presence).asked present cols rows active
        readings.human
      have stored := current
      rw [← Arbiter.asked_sessions _ index conn cols rows active readings.human] at stored
      have owner := Arbiter.ownerOf_claim asked stored conn.clientID tmuxName
      rw [Arbiter.ownerOf_asked] at owner
      by_cases same : tmuxName = conn.tmuxName
      · subst same
        rw [if_pos rfl] at owner
        rw [owner] at changed
        have attaches : conn.attaches conn.tmuxName conn.clientID = true := by
          simp [ArbConn.attaches, ArbConn.registeredTo, counted]
        rw [← owner] at attaches
        rcases claims with rfl | ⟨rfl, policy, may⟩
        · exact .activeResize index cols rows readings conn present attaches
        · have entitled := Arbiter.entitled_of_mayResize run counted policy current changed may
          rcases entitled.inherits with free | gone
          · exact .unowned index cols rows readings conn present attaches policy free
          · exact .ownerGone index cols rows readings conn present attaches policy gone
      · rw [if_neg same] at owner
        exact absurd owner changed
  | claimInput index now conn next dims later present claimed =>
    rcases Arbiter.claimInput_cases claimed with ⟨rfl, -⟩ | ⟨counted, current, rfl | ⟨policy, rfl⟩⟩
    · exact absurd rfl changed
    · exact absurd rfl changed
    · have owner := Arbiter.ownerOf_claim ((consistent.readClock now).sawHuman conn.clientID now)
        current conn.clientID tmuxName
      by_cases same : tmuxName = conn.tmuxName
      · subst same
        rw [if_pos rfl] at owner
        refine .claimInput index now conn present ?_ policy
        rw [owner]
        simp [ArbConn.attaches, ArbConn.registeredTo, counted]
      · rw [if_neg same] at owner
        exact absurd owner changed

/-- In every run an owner changes only by an active resize or a claim of a registered
connection, by an inheritance the past entitles to, or with a record that is dropped; every
other ordinary resize of a client that is not the owner, and every one of a passive connection,
leaves the window and all owners alone. -/
theorem Arbiter.owner_protected (clock : Int) (history : List ArbAction) (arbiter next : Arbiter)
    (action : ArbAction) (applied : Option Applied)
    (run : Run Arbiter.step anything (newArbiter clock) history arbiter)
    (done : arbiter.perform action = some (next, applied)) :
    (∀ tmuxName, next.ownerOf tmuxName ≠ arbiter.ownerOf tmuxName →
      OwnerChange clock history arbiter next tmuxName action) ∧
    ∀ index cols rows readings conn, action = .resize index cols rows false readings →
      arbiter.conns[index]? = some conn →
      (conn.sizePolicy = .passive ∨ conn.clientID ≠ arbiter.ownerOf conn.tmuxName ∧
        ¬ Entitled clock history arbiter conn readings) →
      applied ≠ some (.sized true) ∧
        ∀ tmuxName, next.ownerOf tmuxName = arbiter.ownerOf tmuxName := by
  have performed := Arbiter.performed_of_perform done
  refine ⟨fun tmuxName changed => Arbiter.ownerChange_of_perform run performed changed, ?_⟩
  rintro index cols rows readings conn rfl found barred
  cases performed with
  | resize _ _ _ _ _ other next allowed later present resized =>
    cases found.symm.trans present
    rcases Arbiter.resize_cases resized with ⟨rfl, rfl, -⟩ | ⟨-, -, -, -, rfl, rfl⟩ |
      ⟨counted, current, claims, -, -⟩
    · exact ⟨nofun, fun _ => rfl⟩
    · exact ⟨by decide, fun tmuxName => Arbiter.ownerOf_asked ..⟩
    · obtain ⟨-, policy, may⟩ := claims.resolve_left Bool.false_ne_true
      rcases barred with passive | ⟨foreign, unentitled⟩
      · rw [policy] at passive
        cases passive
      · exact absurd (Arbiter.entitled_of_mayResize run counted policy current foreign may)
          unentitled

/-- Clock readings of a resize that all fall on one instant. -/
def Readings.at (now : Int) : Readings := ⟨now, now, now, le_rfl, le_rfl⟩

/-- A client takes the window over, half a minute after the owner left and a minute after its
own gesture on another session. -/
theorem Arbiter.window_inherited :
    ∃ arbiter next applied,
      exec Arbiter.step (newArbiter 0)
        [.register "mm-1" "desk" .followInput, .register "mm-1" "laptop" .followInput,
          .register "mm-2" "laptop" .passive, .resize 0 80 24 true (Readings.at 0),
          .claimInput 2 0, .unregister 0 (30 * second)] = some arbiter ∧
      arbiter.perform (.resize 1 120 40 false (Readings.at minute)) = some (next, applied) ∧
      OwnerChange 0
        [.register "mm-1" "desk" .followInput, .register "mm-1" "laptop" .followInput,
          .register "mm-2" "laptop" .passive, .resize 0 80 24 true (Readings.at 0),
          .claimInput 2 0, .unregister 0 (30 * second)] arbiter next "mm-1"
        (.resize 1 120 40 false (Readings.at minute)) := by
  refine ⟨_, _, _, rfl, rfl, ?_⟩
  exact (Arbiter.owner_protected 0 _ _ _ _ _ (Run.of_exec_anything rfl) rfl).1 "mm-1" (by decide)

end Multimux
