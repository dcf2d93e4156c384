/-
This file follows the size of the shared tmux window. An active resize of the
client that owns the session already is taken for a repetition and does not
size the window, on the assumption that the owner's earlier resizes left it
current. Ownership is per client and dimensions are per connection, so the
assumption is a condition on the state: an active resize takes effect exactly
when it changes the owner or asks for the size the window has.
-/

import Multimux.Ownership

namespace Multimux

/-- The arbiter and, for each session, the dimensions of the most recent `apply(true)`. -/
structure Windows where
  arbiter : Arbiter
  size : String → Option (UInt16 × UInt16)

/-- The windows before any call. -/
def newWindows (clock : Int) : Windows where
  arbiter := newArbiter clock
  size _ := none

/-- Every `apply` succeeds, and `apply(true)` sizes the window of the connection's session. -/
def Windows.applyResize (windows : Windows) : ArbAction → Option Applied →
    String → Option (UInt16 × UInt16)
  | .resize index cols rows _ _, some (.sized true) =>
    match windows.arbiter.conns[index]? with
    | some conn => Function.update windows.size conn.tmuxName (some (cols, rows))
    | none => windows.size
  | _, _ => windows.size

/-- A call of the arbiter, and what it does to the window. -/
def Windows.step (windows : Windows) (action : ArbAction) : Option Windows :=
  (windows.arbiter.perform action).map fun (arbiter, applied) =>
    { arbiter, size := windows.applyResize action applied }

/-- The calls a connection of the terminal makes; nothing claims by input. -/
def WithoutClaims (_ : Windows) : ArbAction → Prop
  | .claimInput _ _ => False
  | _ => True

/-- A run with windows is a run of the arbiter. -/
theorem Windows.run_arbiter {clock : Int} {actions : List ArbAction} {windows : Windows}
    {allowed : Windows → ArbAction → Prop}
    (run : Run Windows.step allowed (newWindows clock) actions windows) :
    Run Arbiter.step anything (newArbiter clock) actions windows.arbiter := by
  refine run.history (fun actions windows =>
    Run Arbiter.step anything (newArbiter clock) actions windows.arbiter) .nil ?_
  intro actions before action next _ reached _ taken
  obtain ⟨⟨arbiter, applied⟩, done, rfl⟩ := Option.map_eq_some_iff.mp taken
  exact reached.snoc trivial (Option.map_eq_some_iff.mpr ⟨_, done, rfl⟩)

/-- An active resize of a registered follow-input connection sizes the window exactly when its
client was not the owner. -/
theorem Windows.applied_active {arbiter next : Arbiter} {index : Nat} {cols rows : UInt16}
    {readings : Readings} {conn : ArbConn} {applied : Option Applied}
    (consistent : arbiter.Consistent) (present : arbiter.conns[index]? = some conn)
    (registered : conn.unregistered = false) (policy : conn.sizePolicy = .followInput)
    (done : arbiter.perform (.resize index cols rows true readings) = some (next, applied)) :
    applied = some (.sized (arbiter.ownerOf conn.tmuxName ≠ conn.clientID)) := by
  have current := consistent.current conn (List.mem_of_getElem? present) registered
  cases Arbiter.performed_of_perform done with
  | resize _ _ _ _ _ other next allowed later found resized =>
    cases present.symm.trans found
    rcases Arbiter.resize_cases resized with ⟨-, -, stale⟩ | ⟨-, -, ordinary, -⟩ |
      ⟨-, -, -, -, rfl⟩
    · exact absurd ⟨registered, current⟩ stale
    · cases ordinary
    · rw [Arbiter.ownerOf_eq current]
      simp [policy, Arbiter.readClock]

/-- In every run, an active resize of a registered follow-input connection leaves the window at
its dimensions exactly when the client did not own the session before or the window had these
dimensions already. -/
theorem Windows.active_resize_effective_iff (clock : Int) (actions : List ArbAction)
    (windows next : Windows)
    (run : Run Windows.step WithoutClaims (newWindows clock) actions windows)
    (index : Nat) (cols rows : UInt16) (readings : Readings) (conn : ArbConn)
    (present : windows.arbiter.conns[index]? = some conn)
    (registered : conn.unregistered = false) (policy : conn.sizePolicy = .followInput)
    (taken : windows.step (.resize index cols rows true readings) = some next) :
    next.size conn.tmuxName = some (cols, rows) ↔
      windows.arbiter.ownerOf conn.tmuxName ≠ conn.clientID ∨
        windows.size conn.tmuxName = some (cols, rows) := by
  have consistent := Arbiter.consistent_run (Windows.run_arbiter run)
  obtain ⟨⟨arbiter, applied⟩, done, rfl⟩ := Option.map_eq_some_iff.mp taken
  cases Windows.applied_active consistent present registered policy done
  by_cases owner : windows.arbiter.ownerOf conn.tmuxName = conn.clientID
  · simp [Windows.applyResize, owner]
  · simp [Windows.applyResize, owner, present]

/-- Two tabs of one browser profile: the second one's active resize does not size the window. -/
theorem Windows.second_tab_not_sized :
    ¬ ∀ (clock : Int) (actions : List ArbAction) (windows next : Windows) (index : Nat)
        (cols rows : UInt16) (readings : Readings) (conn : ArbConn),
        Run Windows.step WithoutClaims (newWindows clock) actions windows →
        windows.arbiter.conns[index]? = some conn → conn.unregistered = false →
        conn.sizePolicy = .followInput →
        windows.step (.resize index cols rows true readings) = some next →
        next.size conn.tmuxName = some (cols, rows) := by
  intro always
  have sized := always 0 [.register "mm-1" "profile" .followInput,
    .register "mm-1" "profile" .followInput, .resize 0 80 24 true (Readings.at 0)] _ _ 1 120 40
    (Readings.at 0) _ (((Run.nil.snoc trivial rfl).snoc trivial rfl).snoc trivial rfl)
    rfl rfl rfl rfl
  exact absurd sized (by decide)

/-- The first active resize of a client sizes the window. -/
theorem Windows.first_resize_sizes :
    ∃ windows next, exec Windows.step (newWindows 0) [.register "mm-1" "profile" .followInput] =
        some windows ∧
      windows.step (.resize 0 80 24 true (Readings.at 0)) = some next ∧
      next.size "mm-1" = some (80, 24) := by
  refine ⟨_, _, rfl, rfl, ?_⟩
  exact (Windows.active_resize_effective_iff 0 [.register "mm-1" "profile" .followInput] _ _
    (Run.nil.snoc trivial rfl) 0 80 24 (Readings.at 0) _ rfl rfl rfl rfl).mpr (.inl (by decide))

end Multimux
