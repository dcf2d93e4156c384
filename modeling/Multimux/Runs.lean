/-
This file is the library of runs. A system is a partial step function on its
states: an action is either refused in a state or leads to exactly one next
state. A run performs a list of actions in order, each of them accepted by the
state it meets and permitted there; the permission is how a theorem singles out
the runs it is about. An invariant is proved of one permitted step and holds
of every run. For fixed action lists a run is also computed, so that a concrete
run is checked by evaluation.
-/

import Mathlib.Data.List.Induction

namespace Multimux

/-! ### Runs and their invariants -/

section Runs

variable {State Action : Type*} {step : State → Action → Option State}
  {allowed : State → Action → Prop}

/-- A run: the actions from `start`, in order, each permitted in the state it meets and
accepted by it, end in the final state. -/
inductive Run (step : State → Action → Option State) (allowed : State → Action → Prop)
    (start : State) : List Action → State → Prop
  | nil : Run step allowed start [] start
  | snoc {actions : List Action} {middle final : State} {action : Action}
      (before : Run step allowed start actions middle) (permitted : allowed middle action)
      (taken : step middle action = some final) :
      Run step allowed start (actions ++ [action]) final

/-- The permission of a run that is restricted in nothing. -/
def anything : State → Action → Prop := fun _ _ => True

/-- A property of the actions so far and the state they led to holds at the end of every run
when it holds at the start and every permitted step keeps it. -/
theorem Run.history {start final : State} {actions : List Action}
    (holds : List Action → State → Prop) (initially : holds [] start)
    (kept : ∀ actions state action next, Run step allowed start actions state →
      holds actions state → allowed state action → step state action = some next →
      holds (actions ++ [action]) next)
    (run : Run step allowed start actions final) : holds actions final := by
  induction run with
  | nil => exact initially
  | snoc before permitted taken inductionHypothesis =>
    exact kept _ _ _ _ before inductionHypothesis permitted taken

/-- A property of the start that every permitted step keeps holds at the end of every run. -/
theorem Run.invariant {start final : State} {actions : List Action} (holds : State → Prop)
    (initially : holds start)
    (kept : ∀ state action next, holds state → allowed state action →
      step state action = some next → holds next)
    (run : Run step allowed start actions final) : holds final :=
  run.history (fun _ => holds) initially fun _ state action next _ => kept state action next

/-- A run is one without its permissions. -/
theorem Run.unrestricted {start final : State} {actions : List Action}
    (run : Run step allowed start actions final) : Run step anything start actions final := by
  induction run with
  | nil => exact .nil
  | snoc _ _ taken inductionHypothesis => exact inductionHypothesis.snoc trivial taken

/-- The permission of a run may name the actions of the run. -/
theorem Run.confined {start final : State} {actions : List Action}
    (run : Run step allowed start actions final) :
    Run step (fun state action => allowed state action ∧ action ∈ actions) start actions final := by
  suffices wider : ∀ whole, actions ⊆ whole →
      Run step (fun state action => allowed state action ∧ action ∈ whole) start actions final from
    wider actions (List.Subset.refl actions)
  induction run with
  | nil => exact fun _ _ => .nil
  | snoc _ permitted taken inductionHypothesis =>
    intro whole among
    obtain ⟨earlier, last⟩ := List.append_subset.1 among
    exact (inductionHypothesis whole earlier).snoc ⟨permitted, last (List.mem_singleton_self _)⟩
      taken

/-- A run continues with a run from where it ended. -/
theorem Run.append {start middle final : State} {first second : List Action}
    (before : Run step allowed start first middle)
    (after : Run step allowed middle second final) :
    Run step allowed start (first ++ second) final := by
  induction after with
  | nil => rwa [List.append_nil]
  | snoc _ permitted taken inductionHypothesis =>
    rw [← List.append_assoc]
    exact inductionHypothesis.snoc permitted taken

/-- A run of a list that ends in an action, taken apart. -/
theorem Run.last {start final : State} {actions : List Action} {action : Action}
    (run : Run step allowed start (actions ++ [action]) final) :
    ∃ middle, Run step allowed start actions middle ∧ allowed middle action ∧
      step middle action = some final := by
  generalize spelled : actions ++ [action] = whole at run
  cases run with
  | nil => simp at spelled
  | snoc before permitted taken =>
    obtain ⟨same, last⟩ := List.append_inj' spelled rfl
    cases same
    cases last
    exact ⟨_, before, permitted, taken⟩

/-- A run splits at every point of its action list. -/
theorem Run.split {start final : State} {first second : List Action}
    (run : Run step allowed start (first ++ second) final) :
    ∃ middle, Run step allowed start first middle ∧
      Run step allowed middle second final := by
  induction second using List.reverseRecOn generalizing final with
  | nil =>
    rw [List.append_nil] at run
    exact ⟨final, run, .nil⟩
  | append_singleton second action inductionHypothesis =>
    rw [← List.append_assoc] at run
    obtain ⟨_, before, permitted, taken⟩ := run.last
    obtain ⟨middle, head, tail⟩ := inductionHypothesis before
    exact ⟨middle, head, tail.snoc permitted taken⟩

/-- The actions determine where a run ends. -/
theorem Run.unique {start final other : State} {actions : List Action}
    (run : Run step allowed start actions final)
    (again : Run step allowed start actions other) : final = other := by
  induction run generalizing other with
  | nil =>
    generalize spelled : ([] : List Action) = whole at again
    cases again with
    | nil => rfl
    | snoc => simp at spelled
  | snoc _ _ taken inductionHypothesis =>
    obtain ⟨middle, before, -, takenAgain⟩ := again.last
    cases inductionHypothesis before
    exact Option.some.inj (taken.symm.trans takenAgain)

/-- Every action of a run was permitted in the state it met. -/
theorem Run.permitted {start final state : State} {before after : List Action} {action : Action}
    (run : Run step allowed start (before ++ action :: after) final)
    (reached : Run step anything start before state) : allowed state action := by
  rw [List.append_cons] at run
  obtain ⟨_, upTo, -⟩ := run.split
  obtain ⟨_, earlier, permitted, -⟩ := upTo.last
  cases earlier.unrestricted.unique reached
  exact permitted

/-- A property that a step keeps exactly when it is a good step holds throughout a run
exactly when all its steps are good. -/
theorem Run.throughout_iff {start final : State} {actions : List Action} (holds : State → Prop)
    (good : State → Action → Prop) (initially : holds start)
    (exactly : ∀ before state action next, Run step allowed start before state → holds state →
      step state action = some next → (holds next ↔ good state action))
    (run : Run step allowed start actions final) :
    (∀ before after state, actions = before ++ after → Run step allowed start before state →
        holds state) ↔
      (∀ before action after state, actions = before ++ action :: after →
        Run step allowed start before state → good state action) := by
  constructor
  · intro throughout before action after state spelled reached
    rw [spelled, List.append_cons] at run
    obtain ⟨next, upTo, -⟩ := run.split
    obtain ⟨state', reached', -, taken⟩ := upTo.last
    cases reached.unique reached'
    exact (exactly before state action next reached
      (throughout before (action :: after) state spelled reached) taken).mp
      (throughout (before ++ [action]) after next (by rw [spelled, List.append_cons]) upTo)
  · intro each before
    induction before using List.reverseRecOn with
    | nil =>
      intro after state _ reached
      cases Run.nil.unique reached
      exact initially
    | append_singleton before action inductionHypothesis =>
      intro after state spelled reached
      obtain ⟨middle, earlier, -, taken⟩ := reached.last
      rw [← List.append_cons] at spelled
      exact (exactly before middle action state earlier
        (inductionHypothesis (action :: after) middle spelled earlier) taken).mpr
        (each before action after middle spelled earlier)

/-! ### The past of a run -/

/-- Earlier in the run the anchor held, and from then on the property did. -/
def Since (step : State → Action → Option State) (allowed : State → Action → Prop)
    (start : State) (anchor property : State → Prop) (actions : List Action) : Prop :=
  ∃ earlier later middle, actions = earlier ++ later ∧ Run step allowed start earlier middle ∧
    anchor middle ∧ ∀ before after state, later = before ++ after →
      Run step allowed middle before state → property state

/-- Earlier in the run an action happened, in a state that it is looked at with. -/
def Once (step : State → Action → Option State) (allowed : State → Action → Prop)
    (start : State) (event : State → Action → Prop) (actions : List Action) : Prop :=
  ∃ earlier action later state, actions = earlier ++ action :: later ∧
    Run step allowed start earlier state ∧ event state action

theorem Since.now {start state : State} {anchor property : State → Prop} {actions : List Action}
    (run : Run step allowed start actions state) (anchored : anchor state)
    (holds : property state) : Since step allowed start anchor property actions := by
  refine ⟨actions, [], state, (List.append_nil _).symm, run, anchored, ?_⟩
  intro before after reached spelled onward
  obtain ⟨rfl, -⟩ := List.append_eq_nil_iff.mp spelled.symm
  exact Run.nil.unique onward ▸ holds

theorem Since.extend {start next : State} {anchor property : State → Prop}
    {actions : List Action} {action : Action}
    (since : Since step allowed start anchor property actions)
    (run : Run step allowed start (actions ++ [action]) next) (holds : property next) :
    Since step allowed start anchor property (actions ++ [action]) := by
  obtain ⟨earlier, later, middle, rfl, upTo, anchored, each⟩ := since
  refine ⟨earlier, later ++ [action], middle, List.append_assoc _ _ _, upTo, anchored, ?_⟩
  intro before after state spelled onward
  rcases List.eq_nil_or_concat after with rfl | ⟨rest, last, rfl⟩
  · rw [List.append_nil] at spelled
    subst spelled
    rw [List.append_assoc] at run
    cases run.unique (upTo.append onward)
    exact holds
  · rw [List.concat_eq_append, ← List.append_assoc] at spelled
    exact each before rest state (List.append_inj' spelled rfl).1 onward

theorem Once.now {start state : State} {event : State → Action → Prop} {actions : List Action}
    {action : Action} (run : Run step allowed start actions state) (happens : event state action) :
    Once step allowed start event (actions ++ [action]) :=
  ⟨actions, action, [], state, rfl, run, happens⟩

theorem Once.extend {start : State} {event : State → Action → Prop} {actions : List Action}
    (once : Once step allowed start event actions) (action : Action) :
    Once step allowed start event (actions ++ [action]) := by
  obtain ⟨earlier, happened, later, state, rfl, run, holds⟩ := once
  exact ⟨earlier, happened, later ++ [action], state, by simp, run, holds⟩

/-! ### Computed runs -/

/-- Perform the actions in order; the first refusal refuses the whole list. -/
def exec (step : State → Action → Option State) (start : State) : List Action → Option State
  | [] => some start
  | action :: rest => (step start action).bind fun next => exec step next rest

/-- Every action is permitted in the state it meets. -/
def Permitted (step : State → Action → Option State) (allowed : State → Action → Prop)
    (start : State) : List Action → Prop
  | [] => True
  | action :: rest => allowed start action ∧
      match step start action with
      | some next => Permitted step allowed next rest
      | none => True

instance Permitted.decidable [∀ state action, Decidable (allowed state action)] :
    ∀ (start : State) (actions : List Action), Decidable (Permitted step allowed start actions)
  | _, [] => .isTrue trivial
  | start, action :: rest =>
    haveI : Decidable (match step start action with
        | some next => Permitted step allowed next rest
        | none => True) :=
      match step start action with
      | some next => Permitted.decidable next rest
      | none => .isTrue trivial
    inferInstanceAs (Decidable (_ ∧ _))

/-- A computed run all of whose actions are permitted is a run. -/
theorem Run.of_exec {start final : State} {actions : List Action}
    (computed : exec step start actions = some final)
    (permitted : Permitted step allowed start actions) :
    Run step allowed start actions final := by
  induction actions generalizing start with
  | nil =>
    cases computed
    exact .nil
  | cons action rest inductionHypothesis =>
    obtain ⟨first, later⟩ := permitted
    obtain ⟨next, taken, remaining⟩ := Option.bind_eq_some_iff.mp computed
    rw [taken] at later
    exact (Run.nil.snoc first taken).append (inductionHypothesis remaining later)

/-- A test that the end of a computed list of actions passes. -/
theorem exists_of_exec (step : State → Action → Option State) (start : State)
    (actions : List Action) (test : State → Bool)
    (passed : (exec step start actions).any test = true) :
    ∃ final, exec step start actions = some final ∧ test final = true := by
  cases computed : exec step start actions with
  | none =>
    rw [computed] at passed
    cases passed
  | some final =>
    rw [computed] at passed
    exact ⟨final, rfl, passed⟩

/-- A computed list of actions is an unrestricted run. -/
theorem Run.of_exec_anything {start final : State} {actions : List Action}
    (computed : exec step start actions = some final) :
    Run step anything start actions final := by
  refine Run.of_exec computed ?_
  clear computed
  induction actions generalizing start with
  | nil => exact trivial
  | cons action rest inductionHypothesis =>
    refine ⟨trivial, ?_⟩
    split
    · exact inductionHypothesis
    · exact trivial

end Runs

/-! ### Parties in lists -/

section Parties

variable {Party : Type*} {parties : List Party} {index place : Nat} {after found : Party}

/-- What is where after one party was replaced. -/
theorem getElem?_set_cases (there : (parties.set index after)[place]? = some found) :
    place = index ∧ found = after ∨ place ≠ index ∧ parties[place]? = some found := by
  by_cases same : index = place
  · subst same
    rw [List.getElem?_set_self'] at there
    obtain ⟨old, -, rfl⟩ := Option.map_eq_some_iff.mp there
    exact .inl ⟨rfl, rfl⟩
  · rw [List.getElem?_set_ne same] at there
    exact .inr ⟨Ne.symm same, there⟩

/-- What is where after a party was added. -/
theorem getElem?_concat_cases (there : (parties ++ [after])[place]? = some found) :
    parties[place]? = some found ∨ place = parties.length ∧ found = after := by
  rw [List.getElem?_append] at there
  split at there
  · exact .inl there
  · have bound := (List.getElem?_eq_some_iff.mp there).1
    rw [List.length_singleton] at bound
    obtain rfl : place = parties.length := by omega
    rw [Nat.sub_self] at there
    cases there
    exact .inr ⟨rfl, rfl⟩

/-- What is where after one party was changed. -/
theorem getElem?_modify_cases {change : Party → Party}
    (there : (parties.modify index change)[place]? = some found) :
    ∃ old, parties[place]? = some old ∧ found = if index = place then change old else old := by
  rw [List.getElem?_modify] at there
  obtain ⟨old, before, rfl⟩ := Option.map_eq_some_iff.mp there
  exact ⟨old, before, rfl⟩

/-- Adding a party leaves the others in place. -/
theorem getElem?_concat_left (there : parties[place]? = some found) :
    (parties ++ [after])[place]? = some found :=
  (List.getElem?_append_left (List.getElem?_eq_some_iff.mp there).1).trans there

end Parties

/-! ### Two runs in lockstep -/

section Lockstep

variable {State Action Output : Type*} {perform : State → Action → Option (State × Output)}
  {related : State → State → Prop} {allowed : Action → Prop}

/-- What the actions put out, each beside its action, up to the first refusal. -/
def outputs (perform : State → Action → Option (State × Output)) (start : State) :
    List Action → List (Action × Output)
  | [] => []
  | action :: rest =>
    match perform start action with
    | some (next, output) => (action, output) :: outputs perform next rest
    | none => []

/-- What one state accepts, every related one accepts with the same output, and the states
after it are related again. -/
def Follows (perform : State → Action → Option (State × Output))
    (related : State → State → Prop) (allowed : Action → Prop) : Prop :=
  ∀ one other action next output, related one other → allowed action →
    perform one action = some (next, output) →
    ∃ after, perform other action = some (after, output) ∧ related next after

/-- A run from the one state is a run from the other, with the same outputs. -/
theorem Follows.run (follows : Follows perform related allowed) {one other final : State}
    {actions : List Action} (start : related one other)
    (run : Run (fun state action => (perform state action).map Prod.fst) anything one actions
      final) (permitted : ∀ action ∈ actions, allowed action) :
    ∃ after, Run (fun state action => (perform state action).map Prod.fst) anything other actions
      after ∧ related final after := by
  induction run with
  | nil => exact ⟨other, .nil, start⟩
  | snoc before _ taken inductionHypothesis =>
    obtain ⟨middle, reached, close⟩ := inductionHypothesis fun action member =>
      permitted action (List.mem_append_left _ member)
    obtain ⟨⟨next, output⟩, done, rfl⟩ := Option.map_eq_some_iff.mp taken
    obtain ⟨after, followed, still⟩ := follows _ _ _ _ _ close
      (permitted _ (List.mem_append_right _ (List.mem_singleton_self _))) done
    exact ⟨after, reached.snoc trivial (by rw [followed]; rfl), still⟩

theorem outputs_append {start middle : State} {first second : List Action}
    (run : Run (fun state action => (perform state action).map Prod.fst) anything start first
      middle) :
    outputs perform start (first ++ second) =
      outputs perform start first ++ outputs perform middle second := by
  induction run generalizing second with
  | nil => rfl
  | @snoc actions before after action _ _ taken inductionHypothesis =>
    obtain ⟨⟨next, output⟩, done, rfl⟩ := Option.map_eq_some_iff.mp taken
    rw [List.append_assoc, inductionHypothesis, inductionHypothesis]
    simp [outputs, done]

/-- The two runs put out the same. -/
theorem Follows.outputs_eq (follows : Follows perform related allowed) {one other final : State}
    {actions : List Action} (start : related one other)
    (run : Run (fun state action => (perform state action).map Prod.fst) anything one actions
      final) (permitted : ∀ action ∈ actions, allowed action) :
    outputs perform other actions = outputs perform one actions := by
  induction run with
  | nil => rfl
  | @snoc actions before after action earlier _ taken inductionHypothesis =>
    have first : ∀ action ∈ actions, allowed action := fun action member =>
      permitted action (List.mem_append_left _ member)
    obtain ⟨middle, reached, close⟩ := follows.run start earlier first
    obtain ⟨⟨next, output⟩, done, rfl⟩ := Option.map_eq_some_iff.mp taken
    obtain ⟨after, followed, -⟩ := follows _ _ _ _ _ close
      (permitted _ (List.mem_append_right _ (List.mem_singleton_self _))) done
    rw [outputs_append earlier, outputs_append reached, inductionHypothesis first]
    simp [outputs, done, followed]

end Lockstep

end Multimux
