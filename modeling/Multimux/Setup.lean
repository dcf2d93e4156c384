/-
This file models first-run setup: the setup code, the single slot for a
registration in progress, and the begin and finish requests that present the
code. The check that no passkey is stored, the check of the code, the slot and
the store are critical sections of their own, and the code survives its checks
until a registration completes. The content here is what that order leaves
open: a second passkey gets in only where a begin request fills the slot again
while finish requests are on their way from their checks to the table.
-/

import Multimux.Clock
import Multimux.Credentials

namespace Multimux

/-! ### The setup code -/

/-- How long a setup code is valid. -/
def setupCodeTTL : Int := 15 * minute

/-- Failed attempts before the code is invalidated. -/
def maxSetupTries : Nat := 5

/-- A stored passkey. -/
structure Credential where
  id : String
  name : String
  deriving DecidableEq

/-- What the setup routes share. `regSession` is the challenge of the registration in progress
and `issued` the next fresh one. -/
structure SetupWorld where
  now : Int
  setupCode : String
  setupExpiry : Int
  setupTries : Nat
  userName : String
  regSession : Option Nat
  issued : Nat
  credentials : List Credential

/-- The daemon's first start: no passkey, and one code minted. -/
def newSetupCode (code : String) (now : Int) : SetupWorld where
  now
  setupCode := code
  setupExpiry := now + setupCodeTTL
  setupTries := 0
  userName := ""
  regSession := none
  issued := 0
  credentials := []

/-- No passkey is stored. -/
def SetupWorld.setupPending (world : SetupWorld) : Bool := world.credentials.length = 0

/-- A match leaves the code in place; too many mismatches in a row invalidate it. -/
def SetupWorld.consumeSetupCode (world : SetupWorld) (code : String) : SetupWorld × Bool :=
  if world.setupCode = "" ∨ world.setupExpiry < world.now then (world, false)
  else if code = world.setupCode then (world, true)
  else if maxSetupTries ≤ world.setupTries + 1 then
    ({ world with setupCode := "", setupTries := 0 }, false)
  else ({ world with setupTries := world.setupTries + 1 }, false)

/-- The code is spent. -/
def SetupWorld.clearSetupCode (world : SetupWorld) : SetupWorld :=
  { world with setupCode := "", setupTries := 0 }

/-- The row of a passkey; its id is the primary key. -/
def SetupWorld.addCredential (world : SetupWorld) (credential : Credential) :
    Option SetupWorld :=
  if world.credentials.any (·.id == credential.id) then none
  else some { world with credentials := world.credentials ++ [credential] }

/-! ### The requests -/

/-- The body of a request that begins the setup. -/
structure SetupBegin where
  code : String
  userName : String
  keyName : String
  deriving DecidableEq

/-- An authenticator's response to a challenge. -/
structure Attestation where
  challenge : Nat
  credentialID : String
  deriving DecidableEq

/-- The body of a request that finishes it. -/
structure SetupFinish where
  code : String
  keyName : String
  attestation : Attestation
  deriving DecidableEq

/-- A request to one of the setup routes; a begin request may have an unreadable body. -/
inductive SetupRequest
  | setupBegin (body : Option SetupBegin)
  | setupFinish (finish : SetupFinish)

/-- Where a request stands. -/
inductive SetupProc
  | beginCounting (body : Option SetupBegin)
  | beginChecking (body : SetupBegin)
  | beginNaming (body : SetupBegin)
  | beginLoading
  | beginIssuing
  | beginPutting (challenge : Nat)
  | finishCounting (finish : SetupFinish)
  | finishChecking (finish : SetupFinish)
  | finishTaking (finish : SetupFinish)
  | finishLoading (finish : SetupFinish) (challenge : Nat)
  | finishVerifying (finish : SetupFinish) (challenge : Nat)
  | finishStoring (finish : SetupFinish)
  | finishClearing
  | finishCompleting
  | finishSigningIn
  | answered (response : Response)

/-- The answer to a body with an empty field. -/
def setupFieldsError : String := "code, userName, keyName required"

/-- The answer once a passkey is stored. -/
def setupCompleteError : String := "setup already complete"

/-- The answer to a wrong code. -/
def setupCodeError : String := "invalid or expired setup code"

/-- The answer to a finish without a begin. -/
def noRegistrationError : String := "auth: no registration in progress"

section Setup

variable (finishRegistration : Nat → Attestation → Bool)

/-- `handleSetupBegin` and `handleSetupFinish`, one critical section at a time. A call that
fails hands its error on. Whether an attestation is accepted for the challenge of the session is
the verdict of the library's `FinishRegistration`, which is given. -/
def handleSetup (world : SetupWorld) :
    SetupProc → Outcome → Option (SetupWorld × SetupProc)
  | .beginCounting none, _ => some (world, .answered ⟨400, some setupFieldsError⟩)
  | .beginCounting (some body), outcome =>
    if body.userName = "" ∨ body.keyName = "" then
      some (world, .answered ⟨400, some setupFieldsError⟩)
    else
      match outcome with
      | .fails _ => some (world, .answered ⟨403, some setupCompleteError⟩)
      | .ok =>
        if world.setupPending then some (world, .beginChecking body)
        else some (world, .answered ⟨403, some setupCompleteError⟩)
  | .beginChecking body, _ =>
    let (world, valid) := world.consumeSetupCode body.code
    some (world, if valid then .beginNaming body else .answered ⟨403, some setupCodeError⟩)
  | .beginNaming _, .fails error => some (world, .answered ⟨500, some error⟩)
  | .beginNaming body, .ok => some ({ world with userName := body.userName }, .beginLoading)
  | .beginLoading, .fails error => some (world, .answered ⟨500, some error⟩)
  | .beginLoading, .ok => some (world, .beginIssuing)
  | .beginIssuing, .fails error => some (world, .answered ⟨500, some error⟩)
  | .beginIssuing, .ok =>
    some ({ world with issued := world.issued + 1 }, .beginPutting world.issued)
  | .beginPutting challenge, _ =>
    some ({ world with regSession := some challenge }, .answered ⟨200, none⟩)
  | .finishCounting _, .fails _ => some (world, .answered ⟨403, some setupCompleteError⟩)
  | .finishCounting finish, .ok =>
    if world.setupPending then some (world, .finishChecking finish)
    else some (world, .answered ⟨403, some setupCompleteError⟩)
  | .finishChecking finish, _ =>
    let (world, valid) := world.consumeSetupCode finish.code
    some (world, if valid then .finishTaking finish else .answered ⟨403, some setupCodeError⟩)
  | .finishTaking finish, _ =>
    match world.regSession with
    | none => some (world, .answered ⟨400, some noRegistrationError⟩)
    | some challenge =>
      some ({ world with regSession := none }, .finishLoading finish challenge)
  | .finishLoading _ _, .fails error => some (world, .answered ⟨400, some error⟩)
  | .finishLoading finish challenge, .ok => some (world, .finishVerifying finish challenge)
  | .finishVerifying finish challenge, .fails error =>
    if finishRegistration challenge finish.attestation then none
    else some (world, .answered ⟨400, some error⟩)
  | .finishVerifying finish challenge, .ok =>
    if finishRegistration challenge finish.attestation then some (world, .finishStoring finish)
    else none
  | .finishStoring _, .fails error => some (world, .answered ⟨400, some error⟩)
  | .finishStoring finish, .ok =>
    (world.addCredential ⟨finish.attestation.credentialID, finish.keyName⟩).map fun world =>
      (world, .finishClearing)
  -- the code is cleared in `FinishRegistration` and once more in the handler
  | .finishClearing, _ => some (world.clearSetupCode, .finishCompleting)
  | .finishCompleting, _ => some (world.clearSetupCode, .finishSigningIn)
  | .finishSigningIn, .fails error => some (world, .answered ⟨500, some error⟩)
  | .finishSigningIn, .ok => some (world, .answered ⟨200, none⟩)
  | .answered _, _ => none

/-- Overlapping setup requests. Only time passes besides; no further code is minted. -/
def setupMachine : Machine SetupWorld SetupRequest SetupProc Outcome Nat where
  enter
    | .setupBegin body => .beginCounting body
    | .setupFinish finish => .finishCounting finish
  step := handleSetup finishRegistration
  outside world duration := some { world with now := world.now + duration }

end Setup

/-- The daemon before any setup request. -/
def firstRun (code : String) (now : Int) : Pool SetupWorld SetupProc :=
  { world := newSetupCode code now, procs := [] }

/-! ### What a step does -/

/-- Checking a code changes only what belongs to the code. -/
theorem SetupWorld.consumeSetupCode_same {world checked : SetupWorld} {code : String}
    {valid : Bool} (consumed : world.consumeSetupCode code = (checked, valid)) :
    checked.credentials = world.credentials ∧ checked.regSession = world.regSession ∧
      checked.issued = world.issued := by
  unfold consumeSetupCode at consumed
  split at consumed
  · cases consumed
    exact ⟨rfl, rfl, rfl⟩
  · split at consumed
    · cases consumed
      exact ⟨rfl, rfl, rfl⟩
    · split at consumed <;> cases consumed <;> exact ⟨rfl, rfl, rfl⟩

/-- A check succeeds for the code in force only, and changes nothing then. -/
theorem SetupWorld.consumeSetupCode_valid {world checked : SetupWorld} {code : String}
    (consumed : world.consumeSetupCode code = (checked, true)) :
    checked = world ∧ code = world.setupCode ∧ world.setupCode ≠ "" := by
  unfold consumeSetupCode at consumed
  split at consumed
  · exact nomatch congrArg Prod.snd consumed
  · rename_i active
    split at consumed
    · rename_i same
      cases consumed
      exact ⟨rfl, same, fun none => active (.inl none)⟩
    · split at consumed <;> exact nomatch congrArg Prod.snd consumed

/-- A check leaves the code or invalidates it. -/
theorem SetupWorld.consumeSetupCode_code {world checked : SetupWorld} {code : String}
    {valid : Bool} (consumed : world.consumeSetupCode code = (checked, valid)) :
    checked.setupCode = world.setupCode ∨ checked.setupCode = "" := by
  unfold consumeSetupCode at consumed
  split at consumed
  · cases consumed
    exact .inl rfl
  · split at consumed
    · cases consumed
      exact .inl rfl
    · split at consumed <;> cases consumed
      · exact .inr rfl
      · exact .inl rfl

theorem SetupWorld.addCredential_eq_some {world after : SetupWorld} {credential : Credential}
    (added : world.addCredential credential = some after) :
    after = { world with credentials := world.credentials ++ [credential] } := by
  unfold addCredential at added
  split at added
  · cases added
  · exact (Option.some.inj added).symm

section Steps

variable (finishRegistration : Nat → Attestation → Bool)

/-- The registrations a request holds: one on its way into the slot, or one on its way from the
slot into the table. -/
def SetupProc.ceremonies : SetupProc → Nat
  | .beginPutting _ | .finishLoading _ _ | .finishVerifying _ _ | .finishStoring _ => 1
  | _ => 0

/-- The registrations that went into the table or still wait in the slot. -/
def SetupWorld.ceremonies (world : SetupWorld) : Nat :=
  world.credentials.length + world.regSession.toList.length

/-- The one step of a request that reaches the table stores its passkey. -/
theorem handleSetup_storing {world after : SetupWorld} {next : SetupProc} (finish : SetupFinish)
    (stepped : handleSetup finishRegistration world (.finishStoring finish) .ok =
      some (after, next)) :
    next = .finishClearing ∧ after = { world with credentials :=
      world.credentials ++ [⟨finish.attestation.credentialID, finish.keyName⟩] } := by
  obtain ⟨stored, added, same⟩ := Option.map_eq_some_iff.mp stepped
  cases same
  exact ⟨rfl, SetupWorld.addCredential_eq_some added⟩

variable {finishRegistration}

/-- Every other step leaves the table. -/
theorem handleSetup_quiet {world after : SetupWorld} {proc next : SetupProc} {outcome : Outcome}
    (stepped : handleSetup finishRegistration world proc outcome = some (after, next))
    (elsewhere : ¬ ∃ finish, proc = .finishStoring finish ∧ outcome = .ok) :
    after.credentials = world.credentials := by
  revert stepped
  fun_cases handleSetup finishRegistration world proc outcome <;> intro stepped
  case case6 body checked valid consumed =>
    cases stepped
    exact (SetupWorld.consumeSetupCode_same consumed).1
  case case17 finish checked valid consumed =>
    cases stepped
    exact (SetupWorld.consumeSetupCode_same consumed).1
  case case27 finish => exact absurd ⟨_, rfl, rfl⟩ elsewhere
  all_goals cases stepped
  all_goals rfl

/-- No step lets the registrations in the slot, under way and stored grow beyond those
issued. -/
theorem handleSetup_ceremonies {world after : SetupWorld} {proc next : SetupProc}
    {outcome : Outcome}
    (stepped : handleSetup finishRegistration world proc outcome = some (after, next)) :
    after.ceremonies + next.ceremonies + world.issued ≤
      world.ceremonies + proc.ceremonies + after.issued := by
  revert stepped
  fun_cases handleSetup finishRegistration world proc outcome <;> intro stepped
  case case6 body checked valid consumed =>
    cases stepped
    obtain ⟨stored, slot, issued⟩ := SetupWorld.consumeSetupCode_same consumed
    cases valid <;> simp [SetupProc.ceremonies, SetupWorld.ceremonies, stored, slot, issued]
  case case17 finish checked valid consumed =>
    cases stepped
    obtain ⟨stored, slot, issued⟩ := SetupWorld.consumeSetupCode_same consumed
    cases valid <;> simp [SetupProc.ceremonies, SetupWorld.ceremonies, stored, slot, issued]
  case case27 finish =>
    obtain ⟨rfl, rfl⟩ := handleSetup_storing finishRegistration finish stepped
    simp only [SetupWorld.ceremonies, SetupProc.ceremonies, List.length_append,
      List.length_singleton]
    omega
  all_goals cases stepped
  all_goals simp_all [SetupWorld.ceremonies, SetupProc.ceremonies, SetupWorld.clearSetupCode]
  omega

/-! ### One passkey a registration -/

/-- The registrations that the requests under way hold. -/
def ceremoniesUnderWay (procs : List SetupProc) : Nat :=
  (procs.map SetupProc.ceremonies).foldr (· + ·) 0

theorem ceremoniesUnderWay_set {procs : List SetupProc} {index : Nat} {proc : SetupProc}
    (present : procs[index]? = some proc) (next : SetupProc) :
    ceremoniesUnderWay (procs.set index next) + proc.ceremonies =
      ceremoniesUnderWay procs + next.ceremonies := by
  induction procs generalizing index with
  | nil => cases present
  | cons head rest inductionHypothesis =>
    cases index with
    | zero =>
      cases present
      simp only [ceremoniesUnderWay, List.set_cons_zero, List.map_cons, List.foldr_cons]
      omega
    | succ index =>
      have tail := inductionHypothesis present
      simp only [ceremoniesUnderWay, List.set_cons_succ, List.map_cons, List.foldr_cons] at tail ⊢
      omega

/-- A begun registration ends in at most one passkey: however the requests overlap, no more
passkeys are stored than challenges were issued. -/
theorem credentials_le_issued (code : String) (now : Int) {final : Pool SetupWorld SetupProc}
    {moves : List (Move SetupRequest Outcome Nat)}
    (run : Run (setupMachine finishRegistration).next anything (firstRun code now) moves final) :
    final.world.credentials.length ≤ final.world.issued := by
  have bounded : final.world.ceremonies + ceremoniesUnderWay final.procs ≤
      final.world.issued := by
    refine run.invariant (fun pool => pool.world.ceremonies + ceremoniesUnderWay pool.procs ≤
      pool.world.issued) (Nat.le_refl 0) ?_
    intro pool move next bounded _ taken
    cases move with
    | arrive request =>
      cases taken
      cases request <;> simpa [ceremoniesUnderWay, setupMachine, SetupProc.ceremonies]
        using bounded
    | advance index outcome =>
      obtain ⟨proc, world, after, present, stepped, rfl⟩ := Machine.next_advance taken
      have moved := handleSetup_ceremonies stepped
      have replaced := ceremoniesUnderWay_set present after
      dsimp only
      omega
    | occur duration =>
      cases taken
      exact bounded
  exact Nat.le_trans (Nat.le_trans (Nat.le_add_right _ _) (Nat.le_add_right _ _)) bounded

/-! ### One passkey in all -/

/-- The part of the way of a finish request that matters to the others: between its two checks,
past them both, with the registration it took, or with its passkey stored and the code not yet
cleared. -/
inductive SetupStage
  | checking
  | taking
  | holding
  | clearing
  | elsewhere
  deriving DecidableEq

/-- The stage of a request. -/
def SetupProc.stage : SetupProc → SetupStage
  | .finishChecking _ => .checking
  | .finishTaking _ => .taking
  | .finishLoading _ _ | .finishVerifying _ _ | .finishStoring _ => .holding
  | .finishClearing => .clearing
  | _ => .elsewhere

/-- Some request stands at the stage. -/
def AtStage (stage : SetupStage) (procs : List SetupProc) : Prop :=
  ∃ proc ∈ procs, proc.stage = stage

instance AtStage.decidable (stage : SetupStage) (procs : List SetupProc) :
    Decidable (AtStage stage procs) :=
  inferInstanceAs (Decidable (∃ proc ∈ procs, _))

/-- A begin request fills the slot only while no finish request is past its checks with its
passkey not stored, and none is between its checks while another has the code still to clear. -/
def FillsSlotApart (pool : Pool SetupWorld SetupProc) : Move SetupRequest Outcome Nat → Prop
  | .advance index _ =>
    match pool.procs[index]? with
    | some (.beginPutting _) =>
      ¬ AtStage .taking pool.procs ∧ ¬ AtStage .holding pool.procs ∧
        ¬ (AtStage .checking pool.procs ∧ AtStage .clearing pool.procs)
    | _ => True
  | _ => True

instance FillsSlotApart.decidable (pool : Pool SetupWorld SetupProc) :
    ∀ move, Decidable (FillsSlotApart pool move)
  | .advance index _ => by
    unfold FillsSlotApart
    dsimp only
    split <;> infer_instance
  | .arrive _ => .isTrue trivial
  | .occur _ => .isTrue trivial

/-- A step of a request, by its stages: it passes the check of the code, takes the registration
out of the slot, stores its passkey or fills the slot, or it does nothing of this and leaves
table and slot. -/
theorem handleSetup_stages {world after : SetupWorld} {proc next : SetupProc} {outcome : Outcome}
    (stepped : handleSetup finishRegistration world proc outcome = some (after, next)) :
    (proc.stage = .checking ∧ next.stage = .taking ∧ after = world ∧ world.setupCode ≠ "") ∨
    (proc.stage = .taking ∧ next.stage = .holding ∧ world.regSession ≠ none ∧
      after = { world with regSession := none }) ∨
    (proc.stage = .holding ∧ next.stage = .clearing ∧ ∃ credential,
      after = { world with credentials := world.credentials ++ [credential] }) ∨
    (∃ challenge, proc = .beginPutting challenge ∧ next.stage = .elsewhere ∧
      after = { world with regSession := some challenge }) ∨
    (after.credentials = world.credentials ∧ after.regSession = world.regSession ∧
      (after.setupCode = world.setupCode ∨ after.setupCode = "") ∧
      (proc.stage = .clearing → after.setupCode = "") ∧
      (next.stage = .checking ∧ world.credentials = [] ∨
        next.stage = .holding ∧ proc.stage = .holding ∨ next.stage = .elsewhere)) := by
  revert stepped
  fun_cases handleSetup finishRegistration world proc outcome <;> intro stepped
  case case6 body checked valid consumed =>
    cases stepped
    obtain ⟨stored, slot, -⟩ := SetupWorld.consumeSetupCode_same consumed
    refine .inr (.inr (.inr (.inr ⟨stored, slot, SetupWorld.consumeSetupCode_code consumed, nofun,
      .inr (.inr ?_)⟩)))
    cases valid <;> rfl
  case case17 finish checked valid consumed =>
    cases stepped
    cases valid with
    | true =>
      obtain ⟨rfl, -, active⟩ := SetupWorld.consumeSetupCode_valid consumed
      exact .inl ⟨rfl, rfl, rfl, active⟩
    | false =>
      obtain ⟨stored, slot, -⟩ := SetupWorld.consumeSetupCode_same consumed
      exact .inr (.inr (.inr (.inr ⟨stored, slot, SetupWorld.consumeSetupCode_code consumed, nofun,
        .inr (.inr rfl)⟩)))
  case case27 finish =>
    obtain ⟨rfl, rfl⟩ := handleSetup_storing finishRegistration finish stepped
    exact .inr (.inr (.inl ⟨rfl, rfl, _, rfl⟩))
  all_goals cases stepped
  all_goals simp_all [SetupProc.stage, SetupWorld.clearSetupCode, SetupWorld.setupPending]

/-- What keeps a second passkey out: a request with a registration finds table and slot empty
and is the only one, and with a passkey stored the slot is not open to anyone before the code
is cleared. -/
structure OneRegistration (pool : Pool SetupWorld SetupProc) : Prop where
  few : pool.world.credentials.length ≤ 1
  alone : ∀ (first second : Nat) (one other : SetupProc), pool.procs[first]? = some one →
    pool.procs[second]? = some other → one.stage = .holding → other.stage = .holding →
    first = second
  holding : AtStage .holding pool.procs →
    pool.world.credentials = [] ∧ pool.world.regSession = none
  taking : AtStage .taking pool.procs → pool.world.regSession ≠ none →
    pool.world.credentials = []
  checking : AtStage .checking pool.procs → AtStage .clearing pool.procs →
    pool.world.regSession = none
  cleared : pool.world.credentials ≠ [] → pool.world.setupCode ≠ "" →
    AtStage .clearing pool.procs
  stored : AtStage .clearing pool.procs → pool.world.credentials ≠ []

/-- Who stands at a stage after a step stood there before, or is who took the step. -/
theorem AtStage.of_set {stage : SetupStage} {procs : List SetupProc} {index : Nat}
    {next : SetupProc} (there : AtStage stage (procs.set index next)) :
    AtStage stage procs ∨ next.stage = stage := by
  obtain ⟨proc, member, same⟩ := there
  rcases List.mem_or_eq_of_mem_set member with old | rfl
  · exact .inl ⟨proc, old, same⟩
  · exact .inr same

/-- Who stands at a stage stands there still after the step of a request at another. -/
theorem AtStage.set {stage : SetupStage} {procs : List SetupProc} {index : Nat}
    {proc next : SetupProc} (there : AtStage stage procs) (present : procs[index]? = some proc)
    (different : proc.stage ≠ stage) : AtStage stage (procs.set index next) := by
  obtain ⟨other, member, same⟩ := there
  obtain ⟨place, inside, rfl⟩ := List.mem_iff_getElem.mp member
  have apart : index ≠ place := by
    rintro rfl
    rw [List.getElem?_eq_getElem inside, Option.some.injEq] at present
    exact different (present ▸ same)
  refine ⟨_, List.mem_of_getElem? (i := place) ?_, same⟩
  rw [List.getElem?_set_ne apart, List.getElem?_eq_getElem inside]

variable {pool : Pool SetupWorld SetupProc} {index : Nat} {proc next : SetupProc}

theorem OneRegistration.alone_set (holds : OneRegistration pool)
    (present : pool.procs[index]? = some proc)
    (only : next.stage = .holding → proc.stage = .holding ∨ ¬ AtStage .holding pool.procs)
    (first second : Nat) (one other : SetupProc)
    (here : (pool.procs.set index next)[first]? = some one)
    (there : (pool.procs.set index next)[second]? = some other)
    (oneHolds : one.stage = .holding) (otherHolds : other.stage = .holding) : first = second := by
  have lone : ∀ place found, pool.procs[place]? = some found → found.stage = .holding →
      next.stage = .holding → place = index := by
    intro place found occupied foundHolds nextHolds
    rcases only nextHolds with own | none
    · exact holds.alone place index found proc occupied present foundHolds own
    · exact absurd ⟨found, List.mem_of_getElem? occupied, foundHolds⟩ none
  rcases getElem?_set_cases here with ⟨rfl, rfl⟩ | ⟨firstOther, oldOne⟩ <;>
    rcases getElem?_set_cases there with ⟨rfl, rfl⟩ | ⟨secondOther, oldOther⟩
  · rfl
  · exact absurd (lone second other oldOther otherHolds oneHolds) secondOther
  · exact absurd (lone first one oldOne oneHolds otherHolds) firstOther
  · exact holds.alone first second one other oldOne oldOther oneHolds otherHolds

theorem OneRegistration.arrive (holds : OneRegistration pool) (onto : next.stage = .elsewhere) :
    OneRegistration { pool with procs := pool.procs ++ [next] } := by
  have old : ∀ stage, stage ≠ .elsewhere → AtStage stage (pool.procs ++ [next]) →
      AtStage stage pool.procs := by
    rintro stage different ⟨proc, member, same⟩
    rcases List.mem_append.mp member with earlier | new
    · exact ⟨proc, earlier, same⟩
    · rw [List.mem_singleton.mp new, onto] at same
      exact absurd same.symm different
  exact {
    few := holds.few
    alone := by
      intro first second one other here there oneHolds otherHolds
      rcases getElem?_concat_cases here with oldOne | ⟨-, rfl⟩
      · rcases getElem?_concat_cases there with oldOther | ⟨-, rfl⟩
        · exact holds.alone first second one other oldOne oldOther oneHolds otherHolds
        · cases onto.symm.trans otherHolds
      · cases onto.symm.trans oneHolds
    holding := fun there => holds.holding (old .holding nofun there)
    taking := fun there => holds.taking (old .taking nofun there)
    checking := fun there clears =>
      holds.checking (old .checking nofun there) (old .clearing nofun clears)
    cleared := fun stored left => by
      obtain ⟨proc, member, clears⟩ := holds.cleared stored left
      exact ⟨proc, List.mem_append_left _ member, clears⟩
    stored := fun clears => holds.stored (old .clearing nofun clears) }

/-- A finish request passes the check of the code: with a passkey stored the code would be
cleared, or the slot closed. -/
theorem OneRegistration.passes (holds : OneRegistration pool)
    (present : pool.procs[index]? = some proc) (leaves : proc.stage = .checking)
    (onto : next.stage = .taking) (active : pool.world.setupCode ≠ "") :
    OneRegistration ⟨pool.world, pool.procs.set index next⟩ where
  few := holds.few
  alone := holds.alone_set present (by rw [onto]; exact nofun)
  holding there := holds.holding (there.of_set.resolve_right (by rw [onto]; exact nofun))
  taking _ filled := by
    by_contra stored
    exact filled (holds.checking ⟨proc, List.mem_of_getElem? present, leaves⟩
      (holds.cleared stored active))
  checking there clears := holds.checking
    (there.of_set.resolve_right (by rw [onto]; exact nofun))
    (clears.of_set.resolve_right (by rw [onto]; exact nofun))
  cleared stored left := (holds.cleared stored left).set present (by rw [leaves]; exact nofun)
  stored clears := holds.stored (clears.of_set.resolve_right (by rw [onto]; exact nofun))

/-- A finish request takes the registration: nobody else has one, and no passkey is stored. -/
theorem OneRegistration.takes (holds : OneRegistration pool)
    (present : pool.procs[index]? = some proc) (leaves : proc.stage = .taking)
    (onto : next.stage = .holding) (filled : pool.world.regSession ≠ none) :
    OneRegistration ⟨{ pool.world with regSession := none }, pool.procs.set index next⟩ := by
  have none_stored : pool.world.credentials = [] :=
    holds.taking ⟨proc, List.mem_of_getElem? present, leaves⟩ filled
  exact {
    few := holds.few
    alone := holds.alone_set present fun _ => .inr fun there => filled (holds.holding there).2
    holding := fun _ => ⟨none_stored, rfl⟩
    taking := fun _ filled => absurd rfl filled
    checking := fun _ _ => rfl
    cleared := fun stored => absurd none_stored stored
    stored := fun clears =>
      holds.stored (clears.of_set.resolve_right (by rw [onto]; exact nofun)) }

/-- The only request with a registration stores its passkey, the first one. -/
theorem OneRegistration.stores (holds : OneRegistration pool) (credential : Credential)
    (present : pool.procs[index]? = some proc) (leaves : proc.stage = .holding)
    (onto : next.stage = .clearing) :
    OneRegistration ⟨{ pool.world with credentials := pool.world.credentials ++ [credential] },
      pool.procs.set index next⟩ := by
  obtain ⟨bound, -⟩ := List.getElem?_eq_some_iff.mp present
  obtain ⟨none_stored, closed⟩ := holds.holding ⟨proc, List.mem_of_getElem? present, leaves⟩
  exact {
    few := by simp [none_stored]
    alone := holds.alone_set present (by rw [onto]; exact nofun)
    holding := by
      rintro ⟨other, member, otherHolds⟩
      obtain ⟨place, there⟩ := List.getElem?_of_mem member
      rcases getElem?_set_cases there with ⟨-, rfl⟩ | ⟨apart, old⟩
      · cases onto.symm.trans otherHolds
      · exact absurd (holds.alone place index other proc old present otherHolds leaves) apart
    taking := fun _ filled => absurd closed filled
    checking := fun _ _ => closed
    cleared := fun _ _ => ⟨next, List.mem_set bound next, onto⟩
    stored := fun _ => List.append_ne_nil_of_right_ne_nil _ (List.cons_ne_nil _ _) }

/-- A begin request fills the slot apart from those that could take a second registration. -/
theorem OneRegistration.fills (holds : OneRegistration pool) (challenge : Nat)
    (present : pool.procs[index]? = some (.beginPutting challenge))
    (apart : ¬ AtStage .taking pool.procs ∧ ¬ AtStage .holding pool.procs ∧
      ¬ (AtStage .checking pool.procs ∧ AtStage .clearing pool.procs))
    (onto : next.stage = .elsewhere) :
    OneRegistration ⟨{ pool.world with regSession := some challenge },
      pool.procs.set index next⟩ where
  few := holds.few
  alone := holds.alone_set present (by rw [onto]; exact nofun)
  holding there := absurd (there.of_set.resolve_right (by rw [onto]; exact nofun)) apart.2.1
  taking there := absurd (there.of_set.resolve_right (by rw [onto]; exact nofun)) apart.1
  checking there clears := absurd ⟨there.of_set.resolve_right (by rw [onto]; exact nofun),
    clears.of_set.resolve_right (by rw [onto]; exact nofun)⟩ apart.2.2
  cleared stored left := (holds.cleared stored left).set present nofun
  stored clears := holds.stored (clears.of_set.resolve_right (by rw [onto]; exact nofun))

/-- Any other step: who comes between the checks has found no passkey. -/
theorem OneRegistration.quiet (holds : OneRegistration pool) {world : SetupWorld}
    (present : pool.procs[index]? = some proc)
    (table : world.credentials = pool.world.credentials)
    (slot : world.regSession = pool.world.regSession)
    (code : world.setupCode = pool.world.setupCode ∨ world.setupCode = "")
    (clears : proc.stage = .clearing → world.setupCode = "")
    (onto : next.stage = .checking ∧ pool.world.credentials = [] ∨
      next.stage = .holding ∧ proc.stage = .holding ∨ next.stage = .elsewhere) :
    OneRegistration ⟨world, pool.procs.set index next⟩ where
  few := table ▸ holds.few
  alone := holds.alone_set present fun nextHolds => by
    rcases onto with ⟨checks, -⟩ | ⟨-, own⟩ | gone
    · cases checks.symm.trans nextHolds
    · exact .inl own
    · cases gone.symm.trans nextHolds
  holding there := by
    rw [table, slot]
    refine holds.holding (there.of_set.elim id fun nextHolds => ?_)
    rcases onto with ⟨checks, -⟩ | ⟨-, own⟩ | gone
    · cases checks.symm.trans nextHolds
    · exact ⟨proc, List.mem_of_getElem? present, own⟩
    · cases gone.symm.trans nextHolds
  taking there := by
    rw [table, slot]
    refine holds.taking (there.of_set.resolve_right fun takes => ?_)
    rcases onto with ⟨checks, -⟩ | ⟨held, -⟩ | gone
    · cases checks.symm.trans takes
    · cases held.symm.trans takes
    · cases gone.symm.trans takes
  checking there clearing := by
    rw [slot]
    have clearing := clearing.of_set.resolve_right fun clears => by
      rcases onto with ⟨checks, -⟩ | ⟨held, -⟩ | gone
      · cases checks.symm.trans clears
      · cases held.symm.trans clears
      · cases gone.symm.trans clears
    refine holds.checking (there.of_set.resolve_right fun checks => ?_) clearing
    rcases onto with ⟨-, none⟩ | ⟨held, -⟩ | gone
    · exact holds.stored clearing none
    · cases held.symm.trans checks
    · cases gone.symm.trans checks
  cleared stored left := by
    rw [table] at stored
    rcases code with same | none
    · exact (holds.cleared stored (same ▸ left)).set present fun own => left (clears own)
    · exact absurd none left
  stored clearing := by
    rw [table]
    refine holds.stored (clearing.of_set.resolve_right fun clears => ?_)
    rcases onto with ⟨checks, -⟩ | ⟨held, -⟩ | gone
    · cases checks.symm.trans clears
    · cases held.symm.trans clears
    · cases gone.symm.trans clears

/-- One move with the slot filled apart keeps it so. -/
theorem OneRegistration.move {action : Move SetupRequest Outcome Nat}
    {later : Pool SetupWorld SetupProc} (holds : OneRegistration pool)
    (apart : FillsSlotApart pool action)
    (taken : (setupMachine finishRegistration).next pool action = some later) :
    OneRegistration later := by
  cases action with
  | arrive request =>
    cases taken
    exact holds.arrive (by cases request <;> rfl)
  | occur duration =>
    cases taken
    exact ⟨holds.few, holds.alone, holds.holding, holds.taking, holds.checking, holds.cleared,
      holds.stored⟩
  | advance index outcome =>
    obtain ⟨proc, world, next, present, stepped, rfl⟩ := Machine.next_advance taken
    rcases handleSetup_stages stepped with ⟨leaves, enters, rfl, active⟩ |
      ⟨leaves, enters, filled, rfl⟩ | ⟨leaves, enters, credential, rfl⟩ |
      ⟨challenge, rfl, gone, rfl⟩ | ⟨table, slot, code, clears, onto⟩
    · exact holds.passes present leaves enters active
    · exact holds.takes present leaves enters filled
    · exact holds.stores credential present leaves enters
    · simp only [FillsSlotApart, present] at apart
      exact holds.fills challenge present apart gone
    · exact holds.quiet present table slot code clears onto

/-- In every run in which begin requests fill the slot apart from finish requests that could
take a second registration, at most one passkey is stored. -/
theorem setup_registers_one (finishRegistration : Nat → Attestation → Bool) (code : String)
    (now : Int) (moves : List (Move SetupRequest Outcome Nat)) (final : Pool SetupWorld SetupProc)
    (run : Run (setupMachine finishRegistration).next FillsSlotApart (firstRun code now) moves
      final) : final.world.credentials.length ≤ 1 := by
  refine (run.invariant OneRegistration ?_ fun _ _ _ => OneRegistration.move).few
  exact ⟨Nat.zero_le 1, nofun, nofun, nofun, nofun, fun stored => absurd rfl stored, nofun⟩

end Steps

/-- The library as its documentation has it: an attestation is accepted exactly when it answers
the challenge of the session it is given. -/
def answersChallenge (challenge : Nat) (attestation : Attestation) : Bool :=
  attestation.challenge = challenge

/-- Two registrations that overlap: the second begin request fills the slot again while the first
finish request stands between its checks. -/
def overlappingRegistrations : List (Move SetupRequest Outcome Nat) :=
  [.arrive (.setupBegin (some ⟨"ABC234", "owner", "laptop"⟩)), .advance 0 .ok, .advance 0 .ok,
    .advance 0 .ok, .advance 0 .ok, .advance 0 .ok, .advance 0 .ok,
    .arrive (.setupFinish ⟨"ABC234", "laptop", ⟨0, ""⟩⟩), .advance 1 .ok,
    .arrive (.setupBegin (some ⟨"ABC234", "owner", "phone"⟩)), .advance 2 .ok, .advance 2 .ok,
    .advance 2 .ok, .advance 2 .ok, .advance 2 .ok, .advance 2 .ok,
    .arrive (.setupFinish ⟨"ABC234", "phone", ⟨1, "k"⟩⟩), .advance 3 .ok, .advance 3 .ok,
    .advance 3 .ok, .advance 1 .ok, .advance 1 .ok, .advance 3 .ok, .advance 3 .ok,
    .advance 3 .ok, .advance 3 .ok, .advance 3 .ok, .advance 3 .ok]

/-- Of the two finish requests one registers its passkey, and the other finds the slot empty. -/
theorem overlapping_registrations_store_one :
    ∃ final, Run (setupMachine answersChallenge).next FillsSlotApart (firstRun "ABC234" 0)
        overlappingRegistrations final ∧
      final.world.credentials = [⟨"k", "phone"⟩] ∧ final.world.credentials.length ≤ 1 := by
  obtain ⟨final, computed, stored⟩ := exists_of_exec (setupMachine answersChallenge).next
    (firstRun "ABC234" 0) overlappingRegistrations
    (fun pool => pool.world.credentials = [⟨"k", "phone"⟩]) rfl
  have run := (Run.of_exec computed (by decide) : Run _ FillsSlotApart _ _ final)
  exact ⟨final, run, of_decide_eq_true stored,
    setup_registers_one answersChallenge "ABC234" 0 _ _ run⟩

/-- Every request presents the active code, and the passkey of a ceremony has an id of its
own. -/
def ActiveCode (code : String) (credentialID : Nat → String) (_ : Pool SetupWorld SetupProc) :
    Move SetupRequest Outcome Nat → Prop
  | .arrive (.setupBegin body) => body.map SetupBegin.code = some code
  | .arrive (.setupFinish finish) => finish.code = code ∧
      finish.attestation.credentialID = credentialID finish.attestation.challenge
  | _ => True

instance ActiveCode.decidable (code : String) (credentialID : Nat → String)
    (pool : Pool SetupWorld SetupProc) :
    ∀ move, Decidable (ActiveCode code credentialID pool move)
  | .arrive (.setupBegin _) => inferInstanceAs (Decidable (_ = _))
  | .arrive (.setupFinish _) => inferInstanceAs (Decidable (_ ∧ _))
  | .advance _ _ => .isTrue trivial
  | .occur _ => .isTrue trivial

/-- A second begin request refills the slot that a finish request has emptied, so a second
finish request finds the table still empty and a registration of its own. -/
theorem two_passkeys_registered :
    ¬ ∀ (code : String) (now : Int) (credentialID : Nat → String)
        (moves : List (Move SetupRequest Outcome Nat)) (final : Pool SetupWorld SetupProc),
        Function.Injective credentialID →
        Run (setupMachine answersChallenge).next (ActiveCode code credentialID) (firstRun code now)
          moves final →
        final.world.credentials.length ≤ 1 := by
  intro always
  have distinct : Function.Injective fun ceremony =>
      String.ofList (List.replicate ceremony 'k') := by
    intro first second same
    have length := congrArg String.length same
    simpa using length
  have run : Run (setupMachine answersChallenge).next
      (ActiveCode "ABC234" fun ceremony => String.ofList (List.replicate ceremony 'k'))
      (firstRun "ABC234" 0)
      [.arrive (.setupBegin (some ⟨"ABC234", "owner", "laptop"⟩)), .advance 0 .ok, .advance 0 .ok,
        .advance 0 .ok, .advance 0 .ok, .advance 0 .ok, .advance 0 .ok,
        .arrive (.setupFinish ⟨"ABC234", "laptop", ⟨0, ""⟩⟩), .advance 1 .ok, .advance 1 .ok,
        .advance 1 .ok,
        .arrive (.setupBegin (some ⟨"ABC234", "owner", "phone"⟩)), .advance 2 .ok, .advance 2 .ok,
        .advance 2 .ok, .advance 2 .ok, .advance 2 .ok, .advance 2 .ok,
        .arrive (.setupFinish ⟨"ABC234", "phone", ⟨1, "k"⟩⟩), .advance 3 .ok, .advance 3 .ok,
        .advance 3 .ok, .advance 1 .ok, .advance 1 .ok, .advance 1 .ok, .advance 3 .ok,
        .advance 3 .ok, .advance 3 .ok] _ := Run.of_exec rfl (by decide)
  exact absurd (always _ _ _ _ _ distinct run) (by decide)

end Multimux
