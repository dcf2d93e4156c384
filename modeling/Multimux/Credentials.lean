/-
This file models the passkey table and the requests that delete from it. The
handler counts the stored credentials in one call to the store and deletes in
another, so the guard for the last passkey speaks about an earlier table than
the one the delete meets. The content here is which overlaps it survives: a
request alone between its two calls leaves a credential, and requests that are
there together do as long as they do not name all that are stored.
-/

import Multimux.Interleaving
import Mathlib.Data.Finset.Card

namespace Multimux

/-! ### The store and the handler -/

/-- Whether a call to the store or to tmux goes through; a call that fails reports an
error. -/
inductive Outcome
  | ok
  | fails (error : String)

/-- The status and the error text of an answered request. -/
structure Response where
  status : Nat
  error : Option String
  deriving DecidableEq

/-- The credentials table, by its primary key. -/
structure Passkeys where
  ids : Finset String

/-- `CountCredentials`. -/
def Passkeys.countCredentials (passkeys : Passkeys) : Nat := passkeys.ids.card

/-- `DeleteCredential`; an id that is not stored is no error. -/
def Passkeys.deleteCredential (passkeys : Passkeys) (id : String) : Passkeys where
  ids := passkeys.ids.erase id

/-- Where a `handleDeleteCredential` request stands: before its count, between its two store
calls, or answered. -/
inductive DeleteCredential
  | counting (id : String)
  | deleting (id : String)
  | answered (response : Response)

/-- The error of a delete that the guard refuses. -/
def lastPasskeyError : String :=
  "cannot delete the last passkey — use `multimux auth reset` on the machine"

/-- `handleDeleteCredential`, one store call at a time. -/
def handleDeleteCredential (passkeys : Passkeys) :
    DeleteCredential → Outcome → Option (Passkeys × DeleteCredential)
  | .counting _, .fails error => some (passkeys, .answered ⟨500, some error⟩)
  | .counting id, .ok =>
    let counted := passkeys.countCredentials
    if counted ≤ 1 then some (passkeys, .answered ⟨400, some lastPasskeyError⟩)
    else some (passkeys, .deleting id)
  | .deleting _, .fails error => some (passkeys, .answered ⟨500, some error⟩)
  | .deleting id, .ok => some (passkeys.deleteCredential id, .answered ⟨204, none⟩)
  | .answered _, _ => none

/-- Concurrent delete requests over one credentials table. Nothing happens to the table from
outside. -/
def passkeyMachine : Machine Passkeys String DeleteCredential Outcome Empty where
  enter := .counting
  step := handleDeleteCredential
  outside _ event := event.elim

/-- A credentials table before any delete request. -/
def storedPasskeys (ids : Finset String) : Pool Passkeys DeleteCredential :=
  { world := { ids }, procs := [] }

/-! ### The requests between their two calls -/

/-- The credential that a request will delete, once it has passed the guard. -/
def DeleteCredential.names : DeleteCredential → Option String
  | .deleting id => some id
  | _ => none

/-- No request between its two calls names the credential. -/
def Unnamed (procs : List DeleteCredential) (id : String) : Prop :=
  ∀ proc ∈ procs, proc.names ≠ some id

instance Unnamed.decidable (procs : List DeleteCredential) (id : String) :
    Decidable (Unnamed procs id) :=
  inferInstanceAs (Decidable (∀ proc ∈ procs, _))

/-- Some stored credential is named by no request between its two calls. -/
def Spared (pool : Pool Passkeys DeleteCredential) : Prop :=
  ∃ id ∈ pool.world.ids, Unnamed pool.procs id

/-- A request that counts two credentials or more while others are between their count and
their DELETE leaves, with them, a stored credential that none of them names. -/
def LeavesOneUnnamed (pool : Pool Passkeys DeleteCredential) : Move String Outcome Empty → Prop
  | .advance index .ok =>
    match pool.procs[index]? with
    | some (.counting id) => (∃ other ∈ pool.procs, other.names ≠ none) →
        2 ≤ pool.world.ids.card → ∃ kept ∈ pool.world.ids, kept ≠ id ∧ Unnamed pool.procs kept
    | _ => True
  | _ => True

instance LeavesOneUnnamed.decidable (pool : Pool Passkeys DeleteCredential) :
    ∀ move, Decidable (LeavesOneUnnamed pool move)
  | .advance index .ok => by
    unfold LeavesOneUnnamed
    dsimp only
    split <;> infer_instance
  | .advance _ (.fails _) => .isTrue trivial
  | .arrive _ => .isTrue trivial
  | .occur _ => .isTrue trivial

/-- What one step of a delete request can do: answer and leave the table, pass the guard, or
delete. -/
theorem handleDeleteCredential_cases {passkeys after : Passkeys} {proc next : DeleteCredential}
    {outcome : Outcome}
    (stepped : handleDeleteCredential passkeys proc outcome = some (after, next)) :
    (after = passkeys ∧ next.names = none ∧
      (outcome = .ok → (∃ id, proc = .counting id) ∧ passkeys.ids.card ≤ 1)) ∨
    (∃ id, proc = .counting id ∧ outcome = .ok ∧ after = passkeys ∧ 2 ≤ passkeys.ids.card ∧
      next = .deleting id) ∨
    (∃ id, proc = .deleting id ∧ outcome = .ok ∧ after = passkeys.deleteCredential id ∧
      next.names = none) := by
  cases proc with
  | counting id =>
    cases outcome with
    | fails error =>
      cases stepped
      exact .inl ⟨rfl, rfl, nofun⟩
    | ok =>
      simp only [handleDeleteCredential] at stepped
      split at stepped <;> cases stepped
      · rename_i few
        exact .inl ⟨rfl, rfl, fun _ => ⟨⟨id, rfl⟩, few⟩⟩
      · rename_i many
        exact .inr (.inl ⟨id, rfl, rfl, rfl, Nat.lt_of_not_le many, rfl⟩)
  | deleting id =>
    cases outcome with
    | fails error =>
      cases stepped
      exact .inl ⟨rfl, rfl, nofun⟩
    | ok =>
      cases stepped
      exact .inr (.inr ⟨id, rfl, rfl, rfl, rfl⟩)
  | answered response => cases stepped

theorem Unnamed.set {procs : List DeleteCredential} {id : String} {next : DeleteCredential}
    (unnamed : Unnamed procs id) (index : Nat) (free : next.names ≠ some id) :
    Unnamed (procs.set index next) id := by
  intro proc member
  rcases List.mem_or_eq_of_mem_set member with old | rfl
  · exact unnamed proc old
  · exact free

/-- A request that counts takes none of the names the others have. -/
theorem unnamed_set_iff {procs : List DeleteCredential} {index : Nat} {id kept : String}
    (present : procs[index]? = some (.counting id)) :
    Unnamed (procs.set index (.deleting id)) kept ↔ kept ≠ id ∧ Unnamed procs kept := by
  obtain ⟨bound, -⟩ := List.getElem?_eq_some_iff.mp present
  constructor
  · intro unnamed
    refine ⟨fun same => ?_, fun proc member => ?_⟩
    · exact unnamed (.deleting id) (List.mem_set bound _) (same ▸ rfl)
    · obtain ⟨place, inside, rfl⟩ := List.mem_iff_getElem.mp member
      by_cases same : place = index
      · subst same
        rw [List.getElem?_eq_getElem bound, Option.some.injEq] at present
        rw [present]
        exact nofun
      · refine unnamed _ (List.mem_of_getElem? (i := place) ?_)
        rw [List.getElem?_set_ne (Ne.symm same), List.getElem?_eq_getElem inside]
  · rintro ⟨different, unnamed⟩
    exact unnamed.set index fun same => different (Option.some.inj same).symm

/-- A move spares a credential exactly when a request that counts leaves one unnamed. For a
request that is alone between its calls the guard sees to it. -/
theorem spared_next_iff {pool next : Pool Passkeys DeleteCredential}
    {move : Move String Outcome Empty} (spared : Spared pool)
    (taken : passkeyMachine.next pool move = some next) :
    Spared next ↔ LeavesOneUnnamed pool move := by
  obtain ⟨kept, stored, unnamed⟩ := spared
  cases move with
  | arrive id =>
    cases taken
    refine iff_of_true ⟨kept, stored, fun proc member => ?_⟩ trivial
    rcases List.mem_append.mp member with old | new
    · exact unnamed proc old
    · rw [List.mem_singleton.mp new]
      exact nofun
  | occur event => exact event.elim
  | advance index outcome =>
    obtain ⟨proc, world, after, present, stepped, rfl⟩ := Machine.next_advance taken
    rcases handleDeleteCredential_cases stepped with ⟨rfl, silent, counts⟩ |
      ⟨id, rfl, rfl, rfl, many, rfl⟩ | ⟨id, rfl, rfl, rfl, silent⟩
    · refine iff_of_true ⟨kept, stored, unnamed.set index (by rw [silent]; exact nofun)⟩ ?_
      cases outcome with
      | fails error => exact trivial
      | ok =>
        obtain ⟨⟨id, rfl⟩, few⟩ := counts rfl
        simp only [LeavesOneUnnamed, present]
        intro _ many
        exact absurd (Nat.le_trans many few) (by decide)
    · simp only [LeavesOneUnnamed, present]
      constructor
      · rintro ⟨other, remains, free⟩ _ _
        exact ⟨other, remains, (unnamed_set_iff present).mp free⟩
      · intro leaves
        by_cases alone : ∃ other ∈ pool.procs, other.names ≠ none
        · obtain ⟨other, remains, free⟩ := leaves alone many
          exact ⟨other, remains, (unnamed_set_iff present).mpr free⟩
        · obtain ⟨other, remains, different⟩ := Finset.exists_mem_ne many id
          refine ⟨other, remains, (unnamed_set_iff present).mpr ⟨different, ?_⟩⟩
          exact fun proc member named => alone ⟨proc, member, by rw [named]; exact nofun⟩
    · refine iff_of_true ⟨kept, Finset.mem_erase.mpr ⟨?_, stored⟩,
        unnamed.set index (by rw [silent]; exact nofun)⟩ (by simp only [LeavesOneUnnamed, present])
      rintro rfl
      exact unnamed (.deleting kept) (List.mem_of_getElem? present) rfl

/-! ### The deletes that wait go on -/

/-- A request between its two calls goes on; no other one counts or arrives. -/
def GoesOn (pool : Pool Passkeys DeleteCredential) : Move String Outcome Empty → Prop
  | .advance index _ => ∃ id, pool.procs[index]? = some (.deleting id)
  | _ => False

/-- Requests that go on leave an unnamed credential stored. -/
theorem Spared.of_goesOn {pool last : Pool Passkeys DeleteCredential}
    {more : List (Move String Outcome Empty)} (spared : Spared pool)
    (run : Run passkeyMachine.next GoesOn pool more last) : Spared last := by
  refine run.invariant Spared spared fun state move next before permitted taken => ?_
  refine (spared_next_iff before taken).mpr ?_
  cases move with
  | arrive id => exact permitted.elim
  | occur event => exact event.elim
  | advance index outcome =>
    obtain ⟨id, present⟩ := permitted
    cases outcome with
    | fails error => exact trivial
    | ok => simp only [LeavesOneUnnamed, present]

/-- The requests from a position on that are between their two calls, deleting one after the
other, leave of the table what none of them names. -/
theorem exists_goesOn (before after : List DeleteCredential) (passkeys : Passkeys) :
    ∃ more last, Run passkeyMachine.next GoesOn ⟨passkeys, before ++ after⟩ more last ∧
      ∀ id ∈ last.world.ids, id ∈ passkeys.ids ∧ Unnamed after id := by
  induction after generalizing before passkeys with
  | nil => exact ⟨[], _, .nil, fun id stored => ⟨stored, nofun⟩⟩
  | cons proc after inductionHypothesis =>
    have place : (before ++ proc :: after)[before.length]? = some proc := by simp
    cases waits : proc.names with
    | none =>
      obtain ⟨more, last, run, left⟩ := inductionHypothesis (before ++ [proc]) passkeys
      rw [List.append_assoc] at run
      refine ⟨more, last, run, fun id stored => ⟨(left id stored).1, ?_⟩⟩
      refine List.forall_mem_cons.mpr ⟨by rw [waits]; exact nofun, (left id stored).2⟩
    | some named =>
      obtain rfl : proc = .deleting named := by
        cases proc <;> cases waits
        rfl
      obtain ⟨more, last, run, left⟩ := inductionHypothesis (before ++ [.answered ⟨204, none⟩])
        (passkeys.deleteCredential named)
      have deletes : passkeyMachine.next ⟨passkeys, before ++ .deleting named :: after⟩
          (.advance before.length .ok) =
            some ⟨passkeys.deleteCredential named, before ++ [.answered ⟨204, none⟩] ++ after⟩ := by
        simp [Machine.next, passkeyMachine, handleDeleteCredential]
      refine ⟨_, last, (Run.nil.snoc ⟨named, place⟩ deletes).append run, fun id stored => ?_⟩
      obtain ⟨remains, unnamed⟩ := left id stored
      obtain ⟨different, old⟩ := Finset.mem_erase.mp remains
      refine ⟨old, List.forall_mem_cons.mpr ⟨fun same => different ?_, unnamed⟩⟩
      exact (Option.some.inj same).symm

/-- However the requests between their calls go on, a credential remains exactly when one of
those stored is named by none of them. -/
theorem spared_iff_remains (pool : Pool Passkeys DeleteCredential) :
    Spared pool ↔ ∀ more last, Run passkeyMachine.next GoesOn pool more last →
      last.world.ids.Nonempty := by
  constructor
  · intro spared more last run
    obtain ⟨id, stored, -⟩ := spared.of_goesOn run
    exact ⟨id, stored⟩
  · intro remains
    obtain ⟨more, last, run, left⟩ := exists_goesOn [] pool.procs pool.world
    obtain ⟨id, stored⟩ := remains more last run
    exact ⟨id, left id stored⟩

/-! ### The last passkey -/

/-- In every state of a run a credential is stored, and remains however the requests that have
passed the guard go on, exactly when each request that passes it beside others leaves one
credential that neither it nor any of them names. -/
theorem credentials_remain_iff (ids : Finset String) (stored : ids.Nonempty)
    (moves : List (Move String Outcome Empty)) (final : Pool Passkeys DeleteCredential)
    (run : Run passkeyMachine.next anything (storedPasskeys ids) moves final) :
    (∀ before after reached, moves = before ++ after →
        Run passkeyMachine.next anything (storedPasskeys ids) before reached →
        ∀ more last, Run passkeyMachine.next GoesOn reached more last →
          last.world.ids.Nonempty) ↔
      (∀ before move after reached, moves = before ++ move :: after →
        Run passkeyMachine.next anything (storedPasskeys ids) before reached →
        LeavesOneUnnamed reached move) := by
  simp only [← spared_iff_remains]
  obtain ⟨id, member⟩ := stored
  refine run.throughout_iff Spared LeavesOneUnnamed ⟨id, member, nofun⟩ ?_
  intro before pool move next _ spared taken
  exact spared_next_iff spared taken

/-- Two requests that delete two of three passkeys at once, and a third request that counts the
one that is left. -/
def deletedTwice : List (Move String Outcome Empty) :=
  [.arrive "laptop", .arrive "phone", .advance 0 .ok, .advance 1 .ok, .advance 0 .ok,
    .advance 1 .ok, .arrive "tablet", .advance 2 .ok]

/-- One passkey is left at the end, and one at least is stored in every state they reach. -/
theorem two_of_three_deleted :
    ∃ final, Run passkeyMachine.next LeavesOneUnnamed
        (storedPasskeys {"laptop", "phone", "tablet"}) deletedTwice final ∧
      final.world.ids = {"tablet"} ∧
      ∀ before after reached, deletedTwice = before ++ after →
        Run passkeyMachine.next anything (storedPasskeys {"laptop", "phone", "tablet"}) before
          reached → reached.world.ids.Nonempty := by
  have run : Run passkeyMachine.next LeavesOneUnnamed
      (storedPasskeys {"laptop", "phone", "tablet"}) deletedTwice _ := Run.of_exec rfl (by decide)
  refine ⟨_, run, by decide, fun before after reached spelled upTo => ?_⟩
  refine (credentials_remain_iff _ (by decide) _ _ run.unrestricted).mpr ?_ before after reached
    spelled upTo [] reached .nil
  intro before move after reached spelled upTo
  exact (spelled ▸ run).permitted upTo

/-- Two concurrent requests that delete the two stored passkeys both pass the guard, and no
passkey is left. -/
theorem both_passkeys_deleted :
    ¬ ∀ (ids : Finset String) (moves : List (Move String Outcome Empty))
        (final : Pool Passkeys DeleteCredential), ids.Nonempty →
        Run passkeyMachine.next anything (storedPasskeys ids) moves final →
        final.world.ids.Nonempty := by
  intro always
  have run : Run passkeyMachine.next anything (storedPasskeys {"laptop", "phone"})
      [.arrive "laptop", .arrive "phone", .advance 0 .ok, .advance 1 .ok, .advance 0 .ok,
        .advance 1 .ok] _ := Run.of_exec_anything rfl
  have left := always {"laptop", "phone"} _ _ (by decide) run
  exact absurd left (by decide)

end Multimux
