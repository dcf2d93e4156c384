/-
This file models `installTouchScroll`, which turns the movement of one finger
over a terminal into wheel steps. A gesture waits until the finger has moved
far enough to tell scrolling from a sideways swipe, and then catches up with
the movement so far. A step is sent for every whole height of a line, and what
is left is carried over to the next move, whichever way that goes. So the steps
that a gesture sent and the rest it carries always add up to its movement.
-/

import Multimux.Runs
import Mathlib.Analysis.Real.Sqrt
import Mathlib.Data.Rat.Floor
import Mathlib.Tactic.Linarith

namespace Multimux

/-! ### Numbers -/

/-- `Math.trunc`: towards zero. -/
def trunc (value : ℚ) : ℤ := if 0 ≤ value then ⌊value⌋ else ⌈value⌉

theorem abs_sub_trunc_lt (value : ℚ) : |value - trunc value| < 1 := by
  have below := Int.floor_le value
  have above := Int.lt_floor_add_one value
  have under := Int.ceil_lt_add_one value
  have atLeast := Int.le_ceil value
  rw [trunc, abs_lt]
  split
  · constructor
    · linarith
    · linarith
  · constructor
    · linarith
    · linarith

/-- What is left of a value after its whole units is less than a unit. -/
theorem abs_sub_trunc_mul_lt {unit : ℚ} (positive : 0 < unit) (value : ℚ) :
    |value - trunc (value / unit) * unit| < unit := by
  have scaled : value - trunc (value / unit) * unit =
      (value / unit - trunc (value / unit)) * unit := by
    rw [sub_mul, div_mul_cancel₀ value positive.ne']
  rw [scaled, abs_mul, abs_of_pos positive]
  exact mul_lt_of_lt_one_left positive (abs_sub_trunc_lt _)

/-- `Math.hypot(dx, dy) < distance`, compared by the squares so that it is exact. -/
def hypotBelow (dx dy distance : ℚ) : Prop := dx * dx + dy * dy < distance * distance

instance (dx dy distance : ℚ) : Decidable (hypotBelow dx dy distance) :=
  inferInstanceAs (Decidable (_ < _))

theorem hypotBelow_iff {dx dy distance : ℚ} (positive : 0 < distance) :
    hypotBelow dx dy distance ↔ √((dx : ℝ) ^ 2 + (dy : ℝ) ^ 2) < distance := by
  rw [Real.sqrt_lt' (by exact_mod_cast positive), hypotBelow, pow_two, pow_two, pow_two]
  exact_mod_cast Iff.rfl

namespace TouchScroll

/-! ### Gestures -/

/-- A pointer event of the element. -/
structure PointerEvent where
  pointerId : ℤ
  pointerType : String
  isPrimary : Bool
  clientX : ℚ
  clientY : ℚ

/-- How far a gesture came. -/
inductive GesturePhase
  | pending
  | scrolling
  | rejected
  deriving DecidableEq

/-- A touch that may become a scroll. -/
structure Gesture where
  pointerId : ℤ
  startX : ℚ
  startY : ℚ
  lastY : ℚ
  remainder : ℚ
  phase : GesturePhase

/-- How far a finger moves before its gesture is told apart. -/
def activationDistance : ℚ := 12

/-- How many pixels make a step of the wheel. -/
def pixelsPerStep : ℚ := 8

theorem pixelsPerStep_pos : 0 < pixelsPerStep := by norm_num [pixelsPerStep]

/-- A wheel event as it is dispatched; `deltaMode` counts lines by the number 1. -/
structure WheelEvent where
  bubbles : Bool
  cancelable : Bool
  clientX : ℚ
  clientY : ℚ
  deltaMode : ℕ
  deltaX : ℤ
  deltaY : ℤ
  deltaZ : ℤ

/-- What a handler does to the element and to its event. -/
inductive TouchEffect
  | setPointerCapture (pointerId : ℤ)
  | preventDefault
  | dispatch (wheel : WheelEvent)

/-- The event of the wheel that takes a touch's place. -/
def wheelEvent (event : PointerEvent) (deltaY : ℤ) : WheelEvent where
  bubbles := true
  cancelable := true
  clientX := event.clientX
  clientY := event.clientY
  deltaMode := 1
  deltaX := 0
  deltaY := deltaY
  deltaZ := 0

/-! ### The handlers -/

/-- `emitMovement`. Steps that are complete while `isReady` is false are dropped. -/
def emitMovement (event : PointerEvent) (ready : Bool) (gesture : Gesture) :
    Gesture × List TouchEffect :=
  if gesture.phase ≠ .scrolling then (gesture, [])
  else
    let moved := gesture.remainder + (event.clientY - gesture.lastY)
    let steps := trunc (moved / pixelsPerStep)
    let after := { gesture with
      lastY := event.clientY
      remainder := moved - steps * pixelsPerStep }
    if steps = 0 ∨ ready = false then (after, [])
    else
      let deltaY := if 0 < steps then -1 else 1
      (after, List.replicate steps.natAbs (.dispatch (wheelEvent event deltaY)))

/-- The gesture that a pointer event begins. -/
def Gesture.begin (event : PointerEvent) : Gesture where
  pointerId := event.pointerId
  startX := event.clientX
  startY := event.clientY
  lastY := event.clientY
  remainder := 0
  phase := .pending

/-- A finger goes down; a gesture that is under way goes on. -/
def onPointerDown (event : PointerEvent) (gesture : Option Gesture) : Option Gesture :=
  if gesture.isSome ∨ event.pointerType ≠ "touch" ∨ event.isPrimary = false then gesture
  else some (.begin event)

/-- The finger moves: the gesture is decided, or it scrolls. -/
def onPointerMove (event : PointerEvent) (ready : Bool) :
    Option Gesture → Option Gesture × List TouchEffect
  | none => (none, [])
  | some gesture =>
    if event.pointerId ≠ gesture.pointerId ∨ gesture.phase = .rejected then (some gesture, [])
    else if gesture.phase = .pending then
      let dx := event.clientX - gesture.startX
      let dy := event.clientY - gesture.startY
      if hypotBelow dx dy activationDistance then (some gesture, [])
      else if |dy| ≤ |dx| then (some { gesture with phase := .rejected }, [])
      else
        let (after, wheels) := emitMovement event ready { gesture with phase := .scrolling }
        (some after, .setPointerCapture event.pointerId :: .preventDefault :: wheels)
    else
      let (after, wheels) := emitMovement event ready gesture
      (some after, .preventDefault :: wheels)

/-- The finger is gone. -/
def onPointerEnd (event : PointerEvent) (gesture : Option Gesture) : Option Gesture :=
  if gesture.map (·.pointerId) = some event.pointerId then none else gesture

/-- The events of the element; a move comes with what `isReady` says while it is handled. -/
inductive TouchEvent
  | pointerdown (event : PointerEvent)
  | pointermove (event : PointerEvent) (ready : Bool)
  | pointerup (event : PointerEvent)
  | pointercancel (event : PointerEvent)
  | lostpointercapture (event : PointerEvent)

/-- The finger that the event is about. -/
def TouchEvent.pointerId : TouchEvent → ℤ
  | .pointerdown event | .pointermove event _ | .pointerup event | .pointercancel event
  | .lostpointercapture event => event.pointerId

/-- The handler of an event. -/
def handle (gesture : Option Gesture) : TouchEvent → Option Gesture × List TouchEffect
  | .pointerdown event => (onPointerDown event gesture, [])
  | .pointermove event ready => onPointerMove event ready gesture
  | .pointerup event | .pointercancel event | .lostpointercapture event =>
    (onPointerEnd event gesture, [])

/-! ### Runs of events -/

/-- The handlers with what they do; every event is accepted. -/
def performTouch (gesture : Option Gesture) (event : TouchEvent) :
    Option (Option Gesture × List TouchEffect) := some (handle gesture event)

/-- The gesture after an event. -/
def stepTouch (gesture : Option Gesture) (event : TouchEvent) : Option (Option Gesture) :=
  (performTouch gesture event).map Prod.fst

/-- `isReady` is true when it is asked. -/
def AlwaysReady (_ : Option Gesture) : TouchEvent → Prop
  | .pointermove _ ready => ready = true
  | _ => True

/-- The event ends the gesture of the pointer. -/
def TouchEvent.Ends (pointerId : ℤ) : TouchEvent → Prop
  | .pointerup event | .pointercancel event | .lostpointercapture event =>
    event.pointerId = pointerId
  | _ => False

/-- All that the handlers do for the events, in order. -/
def touchEffects (start : Option Gesture) (events : List TouchEvent) : List TouchEffect :=
  (outputs performTouch start events).flatMap Prod.snd

/-- The steps of an effect: a wheel event with `deltaY` -1 is a step up. -/
def TouchEffect.steps : TouchEffect → ℤ
  | .dispatch wheel => -wheel.deltaY
  | _ => 0

/-- The steps of the effects, up against down. -/
def netSteps (effects : List TouchEffect) : ℤ := (effects.map TouchEffect.steps).sum

/-! ### What is sent adds up -/

theorem netSteps_append (first second : List TouchEffect) :
    netSteps (first ++ second) = netSteps first + netSteps second := by
  rw [netSteps, List.map_append, List.sum_append]
  rfl

/-- As many wheel events as there are steps, each one step in their direction. -/
theorem netSteps_wheels (event : PointerEvent) (steps : ℤ) :
    netSteps (List.replicate steps.natAbs
      (.dispatch (wheelEvent event (if 0 < steps then -1 else 1)))) = steps := by
  rw [netSteps, List.map_replicate, List.sum_replicate, nsmul_eq_mul]
  show (steps.natAbs : ℤ) * -(if 0 < steps then -1 else 1) = steps
  split
  · omega
  · omega

/-- The gesture goes on after the effects: what they sent and the change of the rest are the
movement that was added. -/
structure Gesture.Moves (gesture after : Gesture) (effects : List TouchEffect) : Prop where
  pointerId : after.pointerId = gesture.pointerId
  startX : after.startX = gesture.startX
  startY : after.startY = gesture.startY
  kept : pixelsPerStep * netSteps effects + after.remainder =
    gesture.remainder + (after.lastY - gesture.lastY)
  small : |gesture.remainder| < pixelsPerStep → |after.remainder| < pixelsPerStep

theorem Gesture.Moves.refl (gesture : Gesture) : gesture.Moves gesture [] := by
  refine ⟨rfl, rfl, rfl, ?_, id⟩
  simp [netSteps]

theorem emitMovement_moves (event : PointerEvent) (gesture : Gesture) :
    gesture.Moves (emitMovement event true gesture).1 (emitMovement event true gesture).2 := by
  unfold emitMovement
  split
  · exact .refl gesture
  · dsimp only
    split
    · rename_i idle
      have none : trunc ((gesture.remainder + (event.clientY - gesture.lastY)) / pixelsPerStep) =
          0 := by simpa using idle
      refine ⟨rfl, rfl, rfl, ?_, fun _ => abs_sub_trunc_mul_lt pixelsPerStep_pos _⟩
      simp [netSteps, none]
    · refine ⟨rfl, rfl, rfl, ?_, fun _ => abs_sub_trunc_mul_lt pixelsPerStep_pos _⟩
      show pixelsPerStep * (netSteps _ : ℤ) + (_ - _ * pixelsPerStep) = _
      rw [netSteps_wheels]
      ring

theorem emitMovement_lastY (event : PointerEvent) (ready : Bool) {gesture : Gesture}
    (scrolling : gesture.phase = .scrolling) :
    (emitMovement event ready gesture).1.lastY = event.clientY := by
  rw [emitMovement, if_neg (not_not.mpr scrolling)]
  dsimp only
  split
  · rfl
  · rfl

section Steps

variable {gesture after : Gesture} {effects : List TouchEffect}

/-- Movements follow on each other. -/
theorem Gesture.Moves.append {middle : Gesture} {first second : List TouchEffect}
    (before : gesture.Moves middle first) (later : middle.Moves after second) :
    gesture.Moves after (first ++ second) := by
  refine ⟨later.pointerId.trans before.pointerId, later.startX.trans before.startX,
    later.startY.trans before.startY, ?_, fun small => later.small (before.small small)⟩
  have kept := before.kept
  have keptLater := later.kept
  rw [netSteps_append, Int.cast_add, mul_add]
  linarith

/-- Only wheel events count. -/
theorem Gesture.Moves.cons (moves : gesture.Moves after effects) {effect : TouchEffect}
    (silent : effect.steps = 0) : gesture.Moves after (effect :: effects) := by
  have same : netSteps (effect :: effects) = netSteps effects := by
    rw [netSteps, List.map_cons, List.sum_cons, silent, zero_add]
    rfl
  exact ⟨moves.pointerId, moves.startX, moves.startY, same ▸ moves.kept, moves.small⟩

/-- A movement is one of the gesture in another phase. -/
theorem Gesture.Moves.ofPhase {phase : GesturePhase}
    (moves : { gesture with phase := phase }.Moves after effects) :
    gesture.Moves after effects :=
  ⟨moves.pointerId, moves.startX, moves.startY, moves.kept, moves.small⟩

theorem onPointerMove_moves (gesture : Gesture) (event : PointerEvent) :
    ∃ after effects, onPointerMove event true (some gesture) = (some after, effects) ∧
      gesture.Moves after effects ∧
      (event.pointerId = gesture.pointerId → after.phase = .scrolling →
        after.lastY = event.clientY) := by
  rw [onPointerMove]
  split
  · rename_i ignored
    refine ⟨gesture, [], rfl, .refl gesture, fun mine scrolling => ?_⟩
    rcases ignored with other | rejected
    · exact absurd mine other
    · rw [rejected] at scrolling
      cases scrolling
  · split
    · rename_i pending
      dsimp only
      split
      · refine ⟨gesture, [], rfl, .refl gesture, fun _ scrolling => ?_⟩
        rw [pending] at scrolling
        cases scrolling
      · split
        · refine ⟨{ gesture with phase := .rejected }, [], rfl, ?_, nofun⟩
          exact (Gesture.Moves.refl { gesture with phase := .rejected }).ofPhase
        · refine ⟨_, _, rfl, ?_, fun _ _ => emitMovement_lastY event true rfl⟩
          exact ((emitMovement_moves event { gesture with phase := .scrolling }).ofPhase.cons
            rfl).cons rfl
    · rename_i heeded other
      have scrolls : gesture.phase = .scrolling := by
        cases phase : gesture.phase with
        | pending => exact absurd phase other
        | scrolling => rfl
        | rejected => exact absurd (.inr phase) heeded
      refine ⟨_, _, rfl, (emitMovement_moves event gesture).cons rfl, fun _ _ => ?_⟩
      exact emitMovement_lastY event true scrolls

theorem onPointerEnd_some (event : PointerEvent) (gesture : Gesture) :
    event.pointerId = gesture.pointerId ∧ onPointerEnd event (some gesture) = none ∨
      event.pointerId ≠ gesture.pointerId ∧ onPointerEnd event (some gesture) = some gesture := by
  by_cases mine : event.pointerId = gesture.pointerId
  · exact .inl ⟨mine, if_pos (congrArg some mine.symm)⟩
  · exact .inr ⟨mine, if_neg fun same => mine (Option.some.inj same).symm⟩

/-- While a gesture is under way no pointerdown begins another. -/
theorem onPointerDown_some (event : PointerEvent) (gesture : Gesture) :
    onPointerDown event (some gesture) = some gesture := if_pos (.inl rfl)

/-- A pointer goes down, moves or ends, and the three ends are handled alike. -/
theorem TouchEvent.kinds (event : TouchEvent) :
    (∃ pointer, event = .pointerdown pointer) ∨
      (∃ pointer asked, event = .pointermove pointer asked) ∨
      ∃ pointer, event.pointerId = pointer.pointerId ∧
        (∀ pointerId, event.Ends pointerId ↔ pointer.pointerId = pointerId) ∧
        ∀ state, handle state event = (onPointerEnd pointer state, []) := by
  cases event with
  | pointerdown pointer => exact .inl ⟨pointer, rfl⟩
  | pointermove pointer asked => exact .inr (.inl ⟨pointer, asked, rfl⟩)
  | pointerup pointer => exact .inr (.inr ⟨pointer, rfl, fun _ => .rfl, fun _ => rfl⟩)
  | pointercancel pointer => exact .inr (.inr ⟨pointer, rfl, fun _ => .rfl, fun _ => rfl⟩)
  | lostpointercapture pointer => exact .inr (.inr ⟨pointer, rfl, fun _ => .rfl, fun _ => rfl⟩)

/-- An event ends the gesture under way or lets it go on. -/
theorem handle_some (gesture : Gesture) {event : TouchEvent}
    (ready : AlwaysReady (some gesture) event) :
    event.Ends gesture.pointerId ∧ handle (some gesture) event = (none, []) ∨
      ¬ event.Ends gesture.pointerId ∧ ∃ after effects,
        handle (some gesture) event = (some after, effects) ∧ gesture.Moves after effects := by
  rcases event.kinds with ⟨pointer, rfl⟩ | ⟨pointer, asked, rfl⟩ | ⟨pointer, -, ends, handled⟩
  · refine .inr ⟨not_false, gesture, [], ?_, .refl gesture⟩
    rw [handle, onPointerDown_some]
  · have always : asked = true := ready
    subst always
    obtain ⟨after, effects, handled, moves, -⟩ := onPointerMove_moves gesture pointer
    exact .inr ⟨not_false, after, effects, handled, moves⟩
  · rw [ends, handled]
    rcases onPointerEnd_some pointer gesture with ⟨mine, ended⟩ | ⟨other, kept⟩
    · exact .inl ⟨mine, by rw [ended]⟩
    · exact .inr ⟨other, gesture, [], by rw [kept], .refl gesture⟩

/-- An event of another pointer changes nothing and does nothing, whatever `isReady` says. -/
theorem handle_other (gesture : Gesture) {event : TouchEvent}
    (other : event.pointerId ≠ gesture.pointerId) :
    handle (some gesture) event = (some gesture, []) := by
  rcases event.kinds with ⟨pointer, rfl⟩ | ⟨pointer, asked, rfl⟩ | ⟨pointer, same, -, handled⟩
  · rw [handle, onPointerDown_some]
  · exact if_pos (.inl other)
  · rw [handled]
    rcases onPointerEnd_some pointer gesture with ⟨mine, -⟩ | ⟨-, kept⟩
    · exact absurd (same.trans mine) other
    · rw [kept]

end Steps

/-! ### The run of a gesture -/

section Runs

variable {down : PointerEvent} {during events : List TouchEvent}

theorem stepTouch_eq_some_iff {state next : Option Gesture} {event : TouchEvent} :
    stepTouch state event = some next ↔ (handle state event).1 = next := by
  simp [stepTouch, performTouch]

theorem touchEffects_concat {allowed : Option Gesture → TouchEvent → Prop}
    {start state : Option Gesture} {event : TouchEvent}
    (run : Run stepTouch allowed start during state) :
    touchEffects start (during ++ [event]) =
      touchEffects start during ++ (handle state event).2 := by
  rw [touchEffects, outputs_append run.unrestricted, List.flatMap_append]
  simp [touchEffects, outputs, performTouch]

/-- From its pointerdown on and up to its end, a gesture has sent or carries all of its
movement. -/
theorem run_moves {state : Option Gesture}
    (run : Run stepTouch AlwaysReady (some (.begin down)) during state)
    (unended : ∀ event ∈ during, ¬ event.Ends down.pointerId) :
    ∃ gesture, state = some gesture ∧
      (Gesture.begin down).Moves gesture (touchEffects (some (.begin down)) during) := by
  refine run.history (fun events state => (∀ event ∈ events, ¬ event.Ends down.pointerId) →
    ∃ gesture, state = some gesture ∧
      (Gesture.begin down).Moves gesture (touchEffects (some (.begin down)) events)) ?_ ?_ unended
  · exact fun _ => ⟨_, rfl, .refl _⟩
  · intro events state event next before holds ready taken unended
    obtain ⟨gesture, rfl, moves⟩ := holds fun earlier member =>
      unended earlier (List.mem_append_left _ member)
    have goesOn : ¬ event.Ends gesture.pointerId := by
      rw [moves.pointerId]
      exact unended event (List.mem_append_right _ (List.mem_singleton_self _))
    rw [stepTouch_eq_some_iff] at taken
    rcases handle_some gesture ready with ⟨ends, -⟩ | ⟨-, after, effects, handled, further⟩
    · exact absurd ends goesOn
    · refine ⟨after, by rw [← taken, handled], ?_⟩
      rw [touchEffects_concat before, handled]
      exact moves.append further

/-- The pointerdown that began the gesture among the events so far: none was under way before,
and nothing ended it since. -/
structure BegunBy (events : List TouchEvent) (gesture : Gesture) (earlier : List TouchEvent)
    (down : PointerEvent) (during : List TouchEvent) : Prop where
  spelled : events = earlier ++ .pointerdown down :: during
  idle : Run stepTouch AlwaysReady none earlier none
  began : handle none (.pointerdown down) = (some (.begin down), [])
  run : Run stepTouch AlwaysReady (some (.begin down)) during (some gesture)
  unended : ∀ event ∈ during, ¬ event.Ends down.pointerId

/-- Without a gesture, all that happens is that a touch begins one. -/
theorem handle_none (event : TouchEvent) :
    handle none event = (none, []) ∨
      ∃ down, event = .pointerdown down ∧ handle none event = (some (.begin down), []) := by
  rcases event.kinds with ⟨pointer, rfl⟩ | ⟨pointer, asked, rfl⟩ | ⟨pointer, -, -, handled⟩
  · rw [handle, onPointerDown]
    split
    · exact .inl rfl
    · exact .inr ⟨pointer, rfl, rfl⟩
  · exact .inl rfl
  · exact .inl (handled none)

/-- A gesture under way was begun by a pointerdown. -/
theorem exists_begunBy {gesture : Gesture}
    (run : Run stepTouch AlwaysReady none events (some gesture)) :
    ∃ earlier down during, BegunBy events gesture earlier down during := by
  refine run.history (fun events state => ∀ gesture, state = some gesture →
    ∃ earlier down during, BegunBy events gesture earlier down during) ?_ ?_ gesture rfl
  · intro gesture nothing
    cases nothing
  intro events state event next before holds ready taken gesture reached
  subst reached
  have handled := stepTouch_eq_some_iff.mp taken
  cases state with
  | none =>
    rcases handle_none event with idle | ⟨down, rfl, began⟩
    · rw [idle] at handled
      cases handled
    · rw [began] at handled
      cases handled
      exact ⟨events, down, [], rfl, before, began, .nil, nofun⟩
  | some earlierGesture =>
    obtain ⟨earlier, down, during, begun⟩ := holds earlierGesture rfl
    obtain ⟨_, same, moves⟩ := run_moves begun.run begun.unended
    cases same
    refine ⟨earlier, down, during ++ [event], ?_, begun.idle, begun.began,
      begun.run.snoc ready taken, ?_⟩
    · rw [begun.spelled, List.append_assoc, List.cons_append]
    · intro other member
      rcases List.mem_append.mp member with before | last
      · exact begun.unended other before
      · cases List.mem_singleton.mp last
        rcases handle_some earlierGesture ready with ⟨-, ended⟩ | ⟨goesOn, -⟩
        · rw [ended] at handled
          cases handled
        · rwa [moves.pointerId] at goesOn

theorem BegunBy.moves {gesture : Gesture} {earlier : List TouchEvent}
    (begun : BegunBy events gesture earlier down during) :
    (Gesture.begin down).Moves gesture (touchEffects (some (.begin down)) during) := by
  obtain ⟨_, same, moves⟩ := run_moves begun.run begun.unended
  cases same
  exact moves

/-! ### While the terminal is not ready -/

/-- The event with `isReady` true. -/
def TouchEvent.whenReady : TouchEvent → TouchEvent
  | .pointermove event _ => .pointermove event true
  | event => event

theorem emitMovement_fst (event : PointerEvent) (ready : Bool) (gesture : Gesture) :
    (emitMovement event ready gesture).1 = (emitMovement event true gesture).1 := by
  cases ready with
  | true => rfl
  | false =>
    unfold emitMovement
    split
    · rfl
    · dsimp only
      split
      · split
        · rfl
        · rfl
      · rename_i asked
        exact absurd (.inr rfl) asked

/-- `isReady` decides what is sent, and nothing about the gesture. -/
theorem handle_whenReady (state : Option Gesture) (event : TouchEvent) :
    (handle state event.whenReady).1 = (handle state event).1 := by
  cases event with
  | pointermove event asked =>
    cases state with
    | none => rfl
    | some gesture =>
      show (onPointerMove event true (some gesture)).1 =
        (onPointerMove event asked (some gesture)).1
      rw [onPointerMove, onPointerMove]
      split
      · rfl
      · split
        · dsimp only
          split
          · rfl
          · split
            · rfl
            · exact congrArg some (emitMovement_fst event asked _).symm
        · exact congrArg some (emitMovement_fst event asked gesture).symm
  | _ => rfl

theorem alwaysReady_whenReady (state : Option Gesture) (event : TouchEvent) :
    AlwaysReady state event.whenReady := by
  cases event with
  | pointermove event asked => rfl
  | _ => exact trivial

theorem run_whenReady {start state : Option Gesture}
    (run : Run stepTouch anything start events state) :
    Run stepTouch AlwaysReady start (events.map TouchEvent.whenReady) state := by
  induction run with
  | nil => exact .nil
  | @snoc events middle final event before _ taken inductionHypothesis =>
    rw [List.map_append]
    refine inductionHypothesis.snoc (alwaysReady_whenReady middle event) ?_
    rw [stepTouch_eq_some_iff, handle_whenReady]
    exact stepTouch_eq_some_iff.mp taken

/-- Steps that are complete while the terminal is not ready are dropped at once: no gesture ever
carries a whole step to a later move. -/
theorem remainder_lt_step {gesture : Gesture}
    (run : Run stepTouch anything none events (some gesture)) :
    |gesture.remainder| < pixelsPerStep := by
  obtain ⟨earlier, down, during, begun⟩ := exists_begunBy (run_whenReady run)
  exact begun.moves.small (abs_zero.trans_lt pixelsPerStep_pos)

/-! ### Sideways swipes -/

theorem handle_rejected {gesture : Gesture} (rejected : gesture.phase = .rejected)
    {event : TouchEvent} (unended : ¬ event.Ends gesture.pointerId) :
    handle (some gesture) event = (some gesture, []) := by
  rcases event.kinds with ⟨pointer, rfl⟩ | ⟨pointer, asked, rfl⟩ | ⟨pointer, same, ends, -⟩
  · rw [handle, onPointerDown_some]
  · exact if_pos (.inr rejected)
  · exact handle_other gesture fun mine => unended ((ends _).mpr (same.symm.trans mine))

/-- A gesture that began sideways does nothing until its pointer is up. -/
theorem rejected_does_nothing {gesture : Gesture} (rejected : gesture.phase = .rejected)
    {state : Option Gesture} (run : Run stepTouch anything (some gesture) during state)
    (unended : ∀ event ∈ during, ¬ event.Ends gesture.pointerId) :
    state = some gesture ∧ touchEffects (some gesture) during = [] := by
  refine run.history (fun events state =>
    (∀ event ∈ events, ¬ event.Ends gesture.pointerId) →
      state = some gesture ∧ touchEffects (some gesture) events = []) ?_ ?_ unended
  · exact fun _ => ⟨rfl, rfl⟩
  · intro events state event next before holds _ taken unended
    obtain ⟨rfl, silent⟩ := holds fun earlier member =>
      unended earlier (List.mem_append_left _ member)
    have handled := handle_rejected rejected
      (unended event (List.mem_append_right _ (List.mem_singleton_self _)))
    rw [stepTouch_eq_some_iff, handled] at taken
    rw [touchEffects_concat before, handled, silent]
    exact ⟨taken.symm, rfl⟩

end Runs

/-! ### No movement is lost -/

/-- After every move that a scrolling gesture handles, the steps it sent since its pointerdown
and the rest it carries are its whole movement, and the rest is less than a step. The events of
other pointers do nothing. -/
theorem touch_scroll_keeps_movement :
    (∀ (events : List TouchEvent) (gesture after : Gesture) (event : PointerEvent)
      (effects : List TouchEffect), Run stepTouch AlwaysReady none events (some gesture) →
      event.pointerId = gesture.pointerId →
      handle (some gesture) (.pointermove event true) = (some after, effects) →
      after.phase = .scrolling →
      (∃ earlier down during, BegunBy events gesture earlier down during) ∧
      ∀ earlier down during, BegunBy events gesture earlier down during →
        after.startY = down.clientY ∧
        8 * (netSteps (touchEffects (some (.begin down))
          (during ++ [.pointermove event true])) : ℚ) + after.remainder =
            event.clientY - after.startY ∧
        |after.remainder| < 8) ∧
    ∀ (gesture : Gesture) (event : TouchEvent), event.pointerId ≠ gesture.pointerId →
      handle (some gesture) event = (some gesture, []) := by
  refine ⟨?_, fun gesture event other => handle_other gesture other⟩
  intro events gesture after event effects run mine handled scrolling
  refine ⟨exists_begunBy run, fun earlier down during begun => ?_⟩
  obtain ⟨_, _, again, further, arrives⟩ := onPointerMove_moves gesture event
  cases again.symm.trans handled
  have moves := begun.moves.append further
  have kept := moves.kept
  rw [arrives mine scrolling] at kept
  refine ⟨moves.startY, ?_, moves.small (abs_zero.trans_lt pixelsPerStep_pos)⟩
  rw [touchEffects_concat begun.run, handled, moves.startY]
  exact kept.trans (zero_add _)

/-- An event of the first finger at a height. -/
def fingerAt (clientY : ℚ) : PointerEvent := ⟨1, "touch", true, 0, clientY⟩

/-- The finger goes down and moves by two steps and a half, while a second finger comes. -/
def downward : List TouchEvent :=
  [.pointerdown (fingerAt 0), .pointermove (fingerAt 20) true,
    .pointerdown ⟨2, "touch", false, 5, 5⟩]

theorem exec_downward :
    exec stepTouch none downward = some (some ⟨1, 0, 0, 20, 4, .scrolling⟩) := by
  norm_num [exec, downward, stepTouch, performTouch, handle, onPointerDown, Gesture.begin,
    onPointerMove, emitMovement, fingerAt, hypotBelow, activationDistance, pixelsPerStep, trunc]
  rfl

theorem handle_backward :
    handle (some ⟨1, 0, 0, 20, 4, .scrolling⟩) (.pointermove (fingerAt 3) true) =
      (some ⟨1, 0, 0, 3, -5, .scrolling⟩,
        [.preventDefault, .dispatch (wheelEvent (fingerAt 3) 1)]) := by
  norm_num [handle, onPointerMove, emitMovement, fingerAt, pixelsPerStep, trunc]
  rfl

/-- The finger then turns back by more than two steps, which undoes one of the two it had sent. -/
theorem downward_then_backward :
    ∃ earlier down during, BegunBy downward ⟨1, 0, 0, 20, 4, .scrolling⟩ earlier down during ∧
      8 * (netSteps (touchEffects (some (.begin down))
        (during ++ [.pointermove (fingerAt 3) true])) : ℚ) + -5 = 3 - 0 ∧ |(-5 : ℚ)| < 8 := by
  have run : Run stepTouch AlwaysReady none downward (some ⟨1, 0, 0, 20, 4, .scrolling⟩) :=
    Run.of_exec exec_downward ⟨trivial, rfl, trivial, trivial⟩
  obtain ⟨⟨earlier, down, during, begun⟩, each⟩ := touch_scroll_keeps_movement.1 downward _ _ _ _
    run rfl handle_backward rfl
  exact ⟨earlier, down, during, begun, (each earlier down during begun).2⟩

end TouchScroll

end Multimux
