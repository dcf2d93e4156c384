/-
This file proves that a sweep of the arbiter is transparent. A prune that spares
every session drops nothing but gestures too old to count, and the clock does not
run backwards, so a gesture too old for the prune is too old for every later
question. The arbiter with the prune and the one without it therefore answer
every later call alike.
-/

import Multimux.Ownership

namespace Multimux

/-! ### The run in question -/

/-- The call reads no clock before the given time. -/
def ArbAction.readsFrom (now : Int) : ArbAction → Prop
  | .register _ _ _ => True
  | .unregister _ reading | .prune _ reading | .claimInput _ reading => now ≤ reading
  | .resize _ _ _ _ readings => now ≤ readings.human

/-- The callbacks of a run with their arguments, each beside the call that made it. -/
def Arbiter.callbacks (arbiter : Arbiter) (actions : List ArbAction) :
    List (ArbAction × Applied) :=
  (outputs Arbiter.perform arbiter actions).filterMap fun done => done.2.map (done.1, ·)

/-! ### What a prune forgets -/

/-- The swept gestures are the full ones, less some that are too old at the given time. -/
def Forgets (now : Int) (full swept : String → Option Int) : Prop :=
  ∀ clientID, swept clientID = full clientID ∨
    swept clientID = none ∧ ∃ seen, full clientID = some seen ∧ seen < now - presenceWindow

theorem Forgets.update {now : Int} {full swept : String → Option Int}
    (forgets : Forgets now full swept) (clientID : String) (seen : Option Int) :
    Forgets now (Function.update full clientID seen) (Function.update swept clientID seen) := by
  intro other
  by_cases same : other = clientID
  · subst same
    rw [Function.update_self, Function.update_self]
    exact .inl rfl
  · rw [Function.update_of_ne same, Function.update_of_ne same]
    exact forgets other

/-- A later prune drops what the earlier one forgot. -/
theorem Forgets.filter {now reading : Int} {full swept : String → Option Int}
    (forgets : Forgets now full swept) (later : now ≤ reading) (clientID : String) :
    (swept clientID).filter (fun seen => !(seen < reading - presenceWindow)) =
      (full clientID).filter fun seen => !(seen < reading - presenceWindow) := by
  rcases forgets clientID with same | ⟨gone, seen, stored, old⟩
  · rw [same]
  · have older : seen < reading - presenceWindow := by omega
    rw [gone, stored]
    simp [Option.filter, older]

/-- The arbiter with other gestures on record and another last reading of its clock. -/
def Arbiter.recalling (arbiter : Arbiter) (lastHuman : String → Option Int) (clock : Int) :
    Arbiter :=
  { arbiter with lastHuman, clock }

section Recalling

variable (arbiter : Arbiter) (lastHuman : String → Option Int) (clock : Int)

@[simp]
theorem Arbiter.recalling_sessions :
    (arbiter.recalling lastHuman clock).sessions = arbiter.sessions := rfl

@[simp]
theorem Arbiter.recalling_heap : (arbiter.recalling lastHuman clock).heap = arbiter.heap := rfl

theorem Arbiter.setConn_recalling (index : Nat) (conn : ArbConn) :
    (arbiter.recalling lastHuman clock).setConn index conn =
      (arbiter.setConn index conn).recalling lastHuman clock := rfl

theorem Arbiter.modify_recalling (session : Nat) (change : ArbSession → ArbSession) :
    (arbiter.recalling lastHuman clock).modify session change =
      (arbiter.modify session change).recalling lastHuman clock := rfl

theorem Arbiter.sawHuman_recalling (clientID : String) (now : Int) :
    (arbiter.recalling lastHuman clock).sawHuman clientID now =
      (arbiter.sawHuman clientID now).recalling
        (Function.update lastHuman clientID (some now)) clock := rfl

end Recalling

/-- A gesture too old for the prune does not count as presence afterwards. -/
theorem Arbiter.present_recalling (arbiter : Arbiter) {now reading clock : Int}
    {lastHuman : String → Option Int} (forgets : Forgets now arbiter.lastHuman lastHuman)
    (later : now ≤ reading) (clientID : String) :
    (arbiter.recalling lastHuman clock).present clientID reading =
      arbiter.present clientID reading := by
  simp only [Arbiter.present, Arbiter.recalling]
  rcases forgets clientID with same | ⟨gone, seen, stored, old⟩
  · rw [same]
  · have absent : ¬ reading - seen ≤ presenceWindow := by omega
    rw [gone, stored]
    simp [absent]

/-- The second arbiter is the first one, less gestures that no question after the given time
counts. -/
def SweptAt (now : Int) (full swept : Arbiter) : Prop :=
  ∃ lastHuman clock, swept = full.recalling lastHuman clock ∧
    Forgets now full.lastHuman lastHuman ∧ clock ≤ max full.clock now

/-- A prune that spares every session the arbiter tracks only sweeps gestures. -/
theorem Arbiter.sweptAt_prune (arbiter : Arbiter) (alive : String → Bool) (now : Int)
    (tracked : ∀ name session, arbiter.sessions name = some session → alive name = true) :
    SweptAt now arbiter ((arbiter.readClock now).prune alive now) := by
  refine ⟨((arbiter.readClock now).prune alive now).lastHuman, now, ?_, ?_, le_max_right _ _⟩
  · have spared : ((arbiter.readClock now).prune alive now).sessions = arbiter.sessions := by
      funext name
      simp only [Arbiter.prune, Arbiter.readClock]
      cases stored : arbiter.sessions name with
      | none => rfl
      | some session => simp [tracked name session stored]
    calc (arbiter.readClock now).prune alive now
        = { arbiter.recalling ((arbiter.readClock now).prune alive now).lastHuman now with
            sessions := ((arbiter.readClock now).prune alive now).sessions } := rfl
      _ = arbiter.recalling ((arbiter.readClock now).prune alive now).lastHuman now := by
        rw [spared]
        rfl
  · intro clientID
    show (arbiter.lastHuman clientID).filter (fun seen => !(seen < now - presenceWindow)) = _ ∨
      (arbiter.lastHuman clientID).filter (fun seen => !(seen < now - presenceWindow)) = _ ∧ _
    cases arbiter.lastHuman clientID with
    | none => exact .inl rfl
    | some seen =>
      by_cases old : seen < now - presenceWindow
      · exact .inr ⟨by simp [Option.filter, old], seen, rfl, old⟩
      · exact .inl (by simp [Option.filter, old])

theorem SweptAt.ownerOf {now : Int} {full swept : Arbiter} (close : SweptAt now full swept)
    (tmuxName : String) : swept.ownerOf tmuxName = full.ownerOf tmuxName := by
  obtain ⟨lastHuman, clock, rfl, -, -⟩ := close
  rfl

/-! ### Every call is answered alike -/

theorem Arbiter.register_recalling (arbiter : Arbiter) (lastHuman : String → Option Int)
    (clock : Int) (tmuxName clientID : String) (sizePolicy : SizePolicy) :
    (arbiter.recalling lastHuman clock).register tmuxName clientID sizePolicy =
      (arbiter.register tmuxName clientID sizePolicy).recalling lastHuman clock := by
  unfold Arbiter.register Arbiter.find
  simp only [Arbiter.recalling]
  cases arbiter.sessions tmuxName <;> rfl

theorem Arbiter.register_lastHuman (arbiter : Arbiter) (tmuxName clientID : String)
    (sizePolicy : SizePolicy) :
    (arbiter.register tmuxName clientID sizePolicy).lastHuman = arbiter.lastHuman ∧
      (arbiter.register tmuxName clientID sizePolicy).clock = arbiter.clock := by
  unfold Arbiter.register Arbiter.find
  cases arbiter.sessions tmuxName <;> exact ⟨rfl, rfl⟩

theorem Arbiter.unregister_recalling (arbiter : Arbiter) (lastHuman : String → Option Int)
    (clock : Int) (index : Nat) (conn : ArbConn) (now : Int) :
    (arbiter.recalling lastHuman clock).unregister index conn now =
      (arbiter.unregister index conn now).recalling lastHuman clock := by
  unfold Arbiter.unregister
  simp only [Arbiter.setConn_recalling, Arbiter.modify_recalling, Arbiter.recalling_sessions]
  split
  · rfl
  · exact (apply_ite (fun after : Arbiter => after.recalling lastHuman clock) _ _ _).symm

/-- What a question about the window answers, with the swept gestures in place of all. -/
theorem Arbiter.mayResize_recalling (arbiter : Arbiter) {now : Int}
    {lastHuman : String → Option Int} (forgets : Forgets now arbiter.lastHuman lastHuman)
    (clock : Int) (conn : ArbConn) {readings : Readings} (later : now ≤ readings.human) :
    (arbiter.recalling lastHuman clock).mayResize conn readings =
      arbiter.mayResize conn readings := by
  have last : now ≤ readings.presence :=
    le_trans later (le_trans readings.human_le readings.grace_le)
  unfold Arbiter.mayResize
  rw [arbiter.present_recalling forgets last]
  rfl

/-- The gestures after a resize asked for its dimensions. -/
theorem Arbiter.asked_recalling (arbiter : Arbiter) {now : Int}
    {lastHuman : String → Option Int} (forgets : Forgets now arbiter.lastHuman lastHuman)
    (clock : Int) (index : Nat) (conn : ArbConn) (cols rows : UInt16) (active : Bool)
    (reading : Int) :
    ∃ after, (arbiter.recalling lastHuman clock).asked index conn cols rows active reading =
        (arbiter.asked index conn cols rows active reading).recalling after clock ∧
      Forgets now (arbiter.asked index conn cols rows active reading).lastHuman after := by
  unfold Arbiter.asked
  cases active with
  | true =>
    exact ⟨Function.update lastHuman conn.clientID (some reading), rfl,
      forgets.update conn.clientID (some reading)⟩
  | false => exact ⟨lastHuman, rfl, forgets⟩

theorem Arbiter.resize_recalling (arbiter : Arbiter) {now : Int}
    {lastHuman : String → Option Int} (forgets : Forgets now arbiter.lastHuman lastHuman)
    (clock : Int) (index : Nat) (conn : ArbConn) (cols rows : UInt16) (active : Bool)
    {readings : Readings} (later : now ≤ readings.human) :
    ∃ after, (arbiter.recalling lastHuman clock).resize index conn cols rows active readings =
        ((arbiter.resize index conn cols rows active readings).1.recalling after clock,
          (arbiter.resize index conn cols rows active readings).2) ∧
      Forgets now (arbiter.resize index conn cols rows active readings).1.lastHuman after := by
  obtain ⟨after, asked, still⟩ :=
    arbiter.asked_recalling forgets clock index conn cols rows active readings.human
  have may := (arbiter.asked index conn cols rows active readings.human).mayResize_recalling
    still clock conn later
  unfold Arbiter.resize
  by_cases stale : conn.unregistered = true ∨
      arbiter.sessions conn.tmuxName ≠ some conn.session
  · refine ⟨lastHuman, ?_, ?_⟩
    · rw [if_pos stale]
      exact if_pos stale
    · rw [if_pos stale]
      exact forgets
  · refine ⟨after, ?_, ?_⟩
    · rw [if_neg stale]
      refine (if_neg stale).trans ?_
      dsimp only
      rw [asked, may]
      split <;> rfl
    · rw [if_neg stale]
      dsimp only
      split <;> exact still

theorem Arbiter.resize_clock (arbiter : Arbiter) (index : Nat) (conn : ArbConn)
    (cols rows : UInt16) (active : Bool) (readings : Readings) :
    (arbiter.resize index conn cols rows active readings).1.clock = arbiter.clock := by
  have asked : (arbiter.asked index conn cols rows active readings.human).clock =
      arbiter.clock := by
    unfold Arbiter.asked
    split <;> rfl
  unfold Arbiter.resize
  split
  · rfl
  · dsimp only
    split <;> exact asked

theorem Arbiter.claimInput_recalling (arbiter : Arbiter) {now : Int}
    {lastHuman : String → Option Int} (forgets : Forgets now arbiter.lastHuman lastHuman)
    (clock : Int) (conn : ArbConn) (reading : Int) :
    ∃ after, (arbiter.recalling lastHuman clock).claimInput conn reading =
        ((arbiter.claimInput conn reading).1.recalling after clock,
          (arbiter.claimInput conn reading).2) ∧
      Forgets now (arbiter.claimInput conn reading).1.lastHuman after := by
  have still := forgets.update conn.clientID (some reading)
  unfold Arbiter.claimInput
  by_cases stale : conn.unregistered = true ∨
      arbiter.sessions conn.tmuxName ≠ some conn.session
  · refine ⟨lastHuman, ?_, ?_⟩
    · rw [if_pos stale]
      exact if_pos stale
    · rw [if_pos stale]
      exact forgets
  · refine ⟨Function.update lastHuman conn.clientID (some reading), ?_, ?_⟩
    · rw [if_neg stale]
      refine (if_neg stale).trans ?_
      dsimp only
      simp only [Arbiter.sawHuman_recalling, Arbiter.recalling_heap, Arbiter.modify_recalling]
      by_cases owns : conn.sizePolicy = .passive ∨
          ((arbiter.sawHuman conn.clientID reading).heap conn.session).ownerID = conn.clientID
      · rw [if_pos owns]
        exact if_pos owns
      · rw [if_neg owns]
        exact if_neg owns
    · rw [if_neg stale]
      dsimp only
      split <;> exact still

/-! ### The two runs -/

/-- The calls `Performed` describes are the calls of the arbiter. -/
theorem Arbiter.Performed.perform {arbiter next : Arbiter} {action : ArbAction}
    {applied : Option Applied} (done : arbiter.Performed action next applied) :
    arbiter.perform action = some (next, applied) := by
  have ticked : ∀ {first last : Int}, arbiter.clock ≤ first →
      arbiter.tick first last = some (arbiter.readClock last) := fun later => if_pos later
  cases done with
  | register tmuxName clientID sizePolicy => rfl
  | unregister index now conn later present =>
    simp only [Arbiter.perform, ticked later, Option.bind_eq_bind, Option.bind_some]
    rw [show (arbiter.readClock now).conns[index]? = some conn from present]
    rfl
  | prune alive now later =>
    simp only [Arbiter.perform, ticked later, Option.bind_eq_bind, Option.bind_some]
    rfl
  | resize index cols rows active readings conn next allowed later present resized =>
    simp only [Arbiter.perform, ticked later, Option.bind_eq_bind, Option.bind_some]
    rw [show (arbiter.readClock readings.presence).conns[index]? = some conn from present,
      Option.bind_some, resized]
    rfl
  | claimInput index now conn next dims later present claimed =>
    simp only [Arbiter.perform, ticked later, Option.bind_eq_bind, Option.bind_some]
    rw [show (arbiter.readClock now).conns[index]? = some conn from present,
      Option.bind_some, claimed]
    rfl

/-- A call that reads no clock before the prune does and returns the same on both. -/
theorem Arbiter.follows_sweptAt (now : Int) :
    Follows Arbiter.perform (SweptAt now) (ArbAction.readsFrom now) := by
  rintro full swept action next applied ⟨lastHuman, clock, rfl, forgets, bound⟩ from' done
  -- The swept arbiter has read no clock that the full one and the prune have not.
  have behind : ∀ reading, full.clock ≤ reading → now ≤ reading →
      (full.recalling lastHuman clock).clock ≤ reading :=
    fun reading later after => le_trans bound (max_le later after)
  cases Arbiter.performed_of_perform done with
  | register tmuxName clientID sizePolicy =>
    obtain ⟨same, still⟩ := full.register_lastHuman tmuxName clientID sizePolicy
    refine ⟨_, (Arbiter.Performed.register tmuxName clientID sizePolicy).perform,
      lastHuman, clock, full.register_recalling lastHuman clock tmuxName clientID sizePolicy,
      ?_, ?_⟩
    · rwa [same]
    · rwa [still]
  | unregister index reading conn later present =>
    have kept := (full.readClock reading).unregister_frame index conn reading
    refine ⟨_, (Arbiter.Performed.unregister index reading conn (behind reading later from')
      present).perform, lastHuman, reading,
      (full.readClock reading).unregister_recalling lastHuman reading index conn reading, ?_, ?_⟩
    · rwa [kept.1]
    · rw [kept.2.1]
      exact le_max_left _ _
  | prune alive reading later =>
    refine ⟨_, (Arbiter.Performed.prune alive reading (behind reading later from')).perform,
      ((full.readClock reading).prune alive reading).lastHuman, reading, ?_,
      fun _ => .inl rfl, le_max_left _ _⟩
    have same : (fun clientID => (lastHuman clientID).filter fun seen =>
        !(seen < reading - presenceWindow)) =
          ((full.readClock reading).prune alive reading).lastHuman :=
      funext fun clientID => forgets.filter from' clientID
    rw [← same]
    rfl
  | resize index cols rows active readings conn next allowed later present resized =>
    obtain ⟨after, followed, still⟩ := (full.readClock readings.presence).resize_recalling forgets
      readings.presence index conn cols rows active from'
    have clock := (full.readClock readings.presence).resize_clock index conn cols rows active
      readings
    rw [resized] at followed still clock
    refine ⟨_, (Arbiter.Performed.resize index cols rows active readings conn _ _
      (behind readings.human later from') present followed).perform, after, readings.presence,
      rfl, still, ?_⟩
    rw [clock]
    exact le_max_left _ _
  | claimInput index reading conn next dims later present claimed =>
    obtain ⟨after, followed, still⟩ := (full.readClock reading).claimInput_recalling forgets
      reading conn reading
    rw [claimed] at followed still
    refine ⟨_, (Arbiter.Performed.claimInput index reading conn _ _ (behind reading later from')
      present followed).perform, after, reading, rfl, still, ?_⟩
    rcases Arbiter.claimInput_cases claimed with ⟨rfl, -⟩ | ⟨-, -, rfl | ⟨-, rfl⟩⟩ <;>
      exact le_max_left _ _

/-- Wherever a prune that spares every tracked session is put into a run, every later call makes
the same callback and every later state names the same owners. -/
theorem Arbiter.prune_transparent (clock : Int) (first second : List ArbAction)
    (middle final : Arbiter) (alive : String → Bool) (now : Int)
    (before : Run Arbiter.step anything (newArbiter clock) first middle)
    (after : Run Arbiter.step anything middle second final)
    (tracked : ∀ name session, middle.sessions name = some session → alive name = true)
    (later : middle.clock ≤ now) (onwards : ∀ action ∈ second, action.readsFrom now) :
    (newArbiter clock).callbacks (first ++ .prune alive now :: second) =
        (newArbiter clock).callbacks (first ++ second) ∧
      ∀ taken rest, second = taken ++ rest → ∃ plain pruned,
        Run Arbiter.step anything (newArbiter clock) (first ++ taken) plain ∧
        Run Arbiter.step anything (newArbiter clock) (first ++ .prune alive now :: taken) pruned ∧
        ∀ tmuxName, pruned.ownerOf tmuxName = plain.ownerOf tmuxName := by
  have performed : middle.perform (.prune alive now) =
      some ((middle.readClock now).prune alive now, none) :=
    (Arbiter.Performed.prune alive now later).perform
  have close := middle.sweptAt_prune alive now tracked
  have swept : Run Arbiter.step anything middle [.prune alive now]
      ((middle.readClock now).prune alive now) :=
    Run.nil.snoc trivial (by rw [Arbiter.step, performed]; rfl)
  refine ⟨?_, ?_⟩
  · have same : outputs Arbiter.perform ((middle.readClock now).prune alive now) second =
        outputs Arbiter.perform middle second :=
      (Arbiter.follows_sweptAt now).outputs_eq close after onwards
    have silent : outputs Arbiter.perform middle (.prune alive now :: second) =
        (.prune alive now, none) :: outputs Arbiter.perform middle second := by
      rw [outputs, performed, ← same]
    unfold Arbiter.callbacks
    rw [outputs_append before, outputs_append before, silent, List.filterMap_append,
      List.filterMap_append]
    rfl
  · rintro taken rest rfl
    obtain ⟨plain, reached, -⟩ := after.split
    obtain ⟨pruned, followed, still⟩ := (Arbiter.follows_sweptAt now).run close reached
      fun action member => onwards action (List.mem_append_left rest member)
    exact ⟨plain, pruned, before.append reached, before.append (swept.append followed),
      still.ownerOf⟩

/-- The desk's gesture is swept ten minutes later, while the desk still owns the session; its
next resize is answered as if nothing was swept. -/
theorem Arbiter.desk_sweep_transparent :
    ∃ middle final,
      exec Arbiter.step (newArbiter 0)
        [.register "mm-1" "desk" .followInput, .resize 0 80 24 true (Readings.at 0)] =
          some middle ∧
      exec Arbiter.step middle
        [.register "mm-1" "laptop" .followInput, .resize 1 120 40 false (Readings.at (10 * minute)),
          .resize 0 90 30 false (Readings.at (11 * minute))] = some final ∧
      (newArbiter 0).callbacks
          ([.register "mm-1" "desk" .followInput, .resize 0 80 24 true (Readings.at 0)] ++
            .prune (fun _ => true) (10 * minute) ::
            [.register "mm-1" "laptop" .followInput,
              .resize 1 120 40 false (Readings.at (10 * minute)),
              .resize 0 90 30 false (Readings.at (11 * minute))]) =
        (newArbiter 0).callbacks
          ([.register "mm-1" "desk" .followInput, .resize 0 80 24 true (Readings.at 0)] ++
            [.register "mm-1" "laptop" .followInput,
              .resize 1 120 40 false (Readings.at (10 * minute)),
              .resize 0 90 30 false (Readings.at (11 * minute))]) := by
  refine ⟨_, _, rfl, rfl, ?_⟩
  refine (Arbiter.prune_transparent 0 _ _ _ _ (fun _ => true) (10 * minute)
    (Run.of_exec_anything rfl) (Run.of_exec_anything rfl) (fun _ _ _ => rfl) (by decide) ?_).1
  have later : 10 * minute ≤ 11 * minute := by decide
  intro action member
  simp only [List.mem_cons, List.not_mem_nil, or_false] at member
  rcases member with rfl | rfl | rfl
  · trivial
  · exact le_refl (10 * minute)
  · exact later

end Multimux
