/-
This file proves where access comes from. Each grant on record is supported by
an earlier one, back to a request that presented the setup code; each row of
the session table and each passkey is on record; a login challenge is answered
at most once; and a code is compared with at most five wrong guesses. One
summary says what a step may do to the others, so that only a request's own
step has to be looked at case by case.
-/

import Multimux.Access
import Multimux.CookieLifetime

namespace Multimux

/-! ### Histories in which each record is supported -/

section Founded

variable {Record : Type*}

/-- Each record is supported by those before it. -/
inductive Founded (supports : List Record → Record → Prop) : List Record → Prop
  | nil : Founded supports []
  | snoc {before : List Record} {record : Record} (earlier : Founded supports before)
      (supported : supports before record) : Founded supports (before ++ [record])

theorem Founded.supported {supports : List Record → Record → Prop} {history : List Record}
    (founded : Founded supports history) {before after : List Record} {record : Record}
    (split : history = before ++ record :: after) : supports before record := by
  induction founded generalizing after with
  | nil => simp at split
  | snoc earlier supported inductionHypothesis =>
    rcases List.eq_nil_or_concat after with rfl | ⟨rest, last, rfl⟩
    · obtain ⟨rfl, same⟩ := List.append_inj' split rfl
      cases same
      exact supported
    · rw [List.concat_eq_append, ← List.cons_append, ← List.append_assoc] at split
      exact inductionHypothesis (List.append_inj' split rfl).1

end Founded

/-! ### What a step of setup does -/

section Setup

variable {finishRegistration : Nat → Attestation → Bool}

/-- The request is one that finishes setup, or a registration. -/
def SetupProc.finishing : SetupProc → Bool
  | .finishCounting _ | .finishChecking _ | .finishTaking _ | .finishLoading _ _
  | .finishVerifying _ _ | .finishStoring _ | .finishClearing | .finishCompleting
  | .finishSigningIn => true
  | _ => false

/-- The finish request is past its check of the code. -/
def SetupProc.checked : SetupProc → Bool
  | .finishTaking _ | .finishLoading _ _ | .finishVerifying _ _ | .finishStoring _
  | .finishClearing | .finishCompleting | .finishSigningIn => true
  | _ => false

/-- The code of a finish request that is not past its check. -/
def SetupProc.finishCode : SetupProc → Option String
  | .finishCounting finish | .finishChecking finish => some finish.code
  | _ => none

/-- A finish request goes past its check with the code in force only. -/
theorem handleSetup_checked {world after : SetupWorld} {proc next : SetupProc} {outcome : Outcome}
    (stepped : handleSetup finishRegistration world proc outcome = some (after, next)) :
    (next.finishing → proc.finishing) ∧
      (∀ code, next.finishCode = some code → proc.finishCode = some code) ∧
      (next.checked → proc.checked ∨
        proc.finishCode = some world.setupCode ∧ world.setupCode ≠ "") := by
  revert stepped
  fun_cases handleSetup finishRegistration world proc outcome <;> intro stepped
  case case6 body checked valid consumed =>
    cases stepped
    cases valid <;> simp [SetupProc.finishing, SetupProc.checked, SetupProc.finishCode]
  case case17 finish checked valid consumed =>
    cases stepped
    cases valid with
    | false => simp [SetupProc.finishing, SetupProc.checked, SetupProc.finishCode]
    | true =>
      obtain ⟨-, same, active⟩ := SetupWorld.consumeSetupCode_valid consumed
      simp [SetupProc.finishing, SetupProc.checked, SetupProc.finishCode, same, active]
  case case27 finish =>
    obtain ⟨rfl, -⟩ := handleSetup_storing finishRegistration finish stepped
    simp [SetupProc.finishing, SetupProc.checked, SetupProc.finishCode]
  all_goals cases stepped
  all_goals simp_all [SetupProc.finishing, SetupProc.checked, SetupProc.finishCode]

/-- The wrong guesses at the code in force are those since it was minted, and too few to
invalidate it; at no time were there more than invalidate it. -/
structure SetupWorld.Guarded (world : SetupWorld) (code : String) (refused : Nat) : Prop where
  code : world.setupCode = code ∨ world.setupCode = ""
  tries : world.setupCode ≠ "" → refused = world.setupTries ∧ world.setupTries < maxSetupTries
  bounded : refused ≤ maxSetupTries

theorem SetupWorld.Guarded.same {world after : SetupWorld} {code : String} {refused : Nat}
    (guarded : world.Guarded code refused) (kept : after.setupCode = world.setupCode)
    (counted : after.setupTries = world.setupTries) : after.Guarded code refused where
  code := kept ▸ guarded.code
  tries active := counted ▸ guarded.tries (kept ▸ active)
  bounded := guarded.bounded

theorem SetupWorld.Guarded.cleared {world : SetupWorld} {code : String} {refused : Nat}
    (guarded : world.Guarded code refused) : world.clearSetupCode.Guarded code refused where
  code := .inr rfl
  tries active := absurd rfl active
  bounded := guarded.bounded

theorem SetupWorld.Guarded.consume {world : SetupWorld} {code : String} {refused : Nat}
    (guarded : world.Guarded code refused) (guess : String) :
    (world.consumeSetupCode guess).1.Guarded code
      (if world.setupCode ≠ "" && ¬ world.setupExpiry < world.now && guess ≠ world.setupCode then
        refused + 1 else refused) := by
  unfold consumeSetupCode
  split
  · rename_i idle
    have unheard : ¬ (world.setupCode ≠ "" && ¬ world.setupExpiry < world.now &&
        guess ≠ world.setupCode) = true := by
      rcases idle with none | expired
      · simp [none]
      · simp [expired]
    rw [if_neg unheard]
    exact guarded
  · rename_i active
    simp only [not_or] at active
    split
    · rename_i same
      simpa [same] using guarded
    · rename_i wrong
      obtain ⟨counted, few⟩ := guarded.tries active.1
      have heard : (world.setupCode ≠ "" && ¬ world.setupExpiry < world.now &&
          guess ≠ world.setupCode) = true := by
        simp [active.1, active.2, wrong]
      rw [if_pos heard]
      split
      · exact ⟨.inr rfl, fun present => absurd rfl present, by omega⟩
      · rename_i left
        refine ⟨guarded.code, fun _ => ⟨?_, ?_⟩, ?_⟩
        · show refused + 1 = world.setupTries + 1
          rw [counted]
        · show world.setupTries + 1 < maxSetupTries
          omega
        · omega

theorem handleSetup_guarded {world after : SetupWorld} {proc next : SetupProc} {outcome : Outcome}
    {code : String} {refused : Nat} (guarded : world.Guarded code refused)
    (stepped : handleSetup finishRegistration world proc outcome = some (after, next)) :
    after.Guarded code (if proc.guessesWrong world then refused + 1 else refused) := by
  revert stepped
  fun_cases handleSetup finishRegistration world proc outcome <;> intro stepped
  case case6 body checked valid consumed =>
    cases stepped
    have kept := guarded.consume body.code
    rw [consumed] at kept
    exact kept
  case case17 finish checked valid consumed =>
    cases stepped
    have kept := guarded.consume finish.code
    rw [consumed] at kept
    exact kept
  case case27 finish =>
    obtain ⟨-, rfl⟩ := handleSetup_storing finishRegistration finish stepped
    exact guarded.same rfl rfl
  all_goals cases stepped
  all_goals first
    | exact guarded.cleared
    | exact guarded.same rfl rfl

/-- A registration is stored by a finish request past its check, one at a time. -/
theorem handleSetup_credentials {world after : SetupWorld} {proc next : SetupProc}
    {outcome : Outcome}
    (stepped : handleSetup finishRegistration world proc outcome = some (after, next)) :
    after.credentials = world.credentials ∨ proc.checked ∧ ∃ credential,
      after.credentials = world.credentials ++ [credential] := by
  by_cases storing : ∃ finish, proc = .finishStoring finish ∧ outcome = .ok
  · obtain ⟨finish, rfl, rfl⟩ := storing
    obtain ⟨-, rfl⟩ := handleSetup_storing finishRegistration finish stepped
    exact .inr ⟨rfl, _, rfl⟩
  · exact .inl (handleSetup_quiet stepped storing)

end Setup

/-! ### The invariant -/

section Provenance

variable (hashToken : String → String) (code : String) (presented : String → Prop)

/-- What a record needs before it: the code in force, a passkey on record, or a session. -/
def Ground.Supported (before : List AccessRecord) : Ground → Prop
  | .setupCode shown => shown = code ∧ presented shown
  | .passkey id _ => ∃ ground, .registered id ground ∈ before
  | .session tokenHash => ∃ ground, .granted tokenHash ground ∈ before

/-- The ground of the record was there before it. -/
def Supports (before : List AccessRecord) (record : AccessRecord) : Prop :=
  record.ground.Supported code presented before

/-- The challenge that a passkey's ground names. -/
def Ground.challenge : Ground → Option Nat
  | .passkey _ challenge => some challenge
  | _ => none

/-- The login challenges on which something was granted. -/
def answeredChallenges (history : List AccessRecord) : List Nat :=
  history.filterMap fun record => record.ground.challenge

/-- Everything recorded is founded, and everything stored is recorded. -/
structure AccessWorld.Sound (world : AccessWorld) : Prop where
  founded : Founded (Supports code presented) world.history
  rows : ∀ row ∈ world.table, ∃ ground, .granted row.tokenHash ground ∈ world.history
  passkeys : ∀ credential ∈ world.setup.credentials,
    ∃ ground, .registered credential.id ground ∈ world.history
  distinct : (answeredChallenges world.history).Nodup
  fresh : ∀ challenge ∈ answeredChallenges world.history, challenge < world.issued
  slot : ∀ challenge, world.loginSession = some challenge →
    challenge < world.issued ∧ challenge ∉ answeredChallenges world.history
  guarded : world.setup.Guarded code world.refused

/-- The request whose row was found in the table. -/
def AuthProc.found : AuthProc → Option AuthRequest
  | .sampling request _ | .deciding request _ _ | .handling request _ => some request
  | _ => none

/-- What a request may rely on of the records. -/
def AccessProc.Entitled (history : List AccessRecord) : AccessProc → Prop
  | .setup shown proc => (proc.finishing → presented shown) ∧
      (∀ guess, proc.finishCode = some guess → guess = shown) ∧ (proc.checked → shown = code)
  | .guarding auth _ => ∀ request, auth.found = some request →
      ∃ ground, .granted (hashToken request.tokenFromRequest) ground ∈ history
  | .registering tokenHash _ | .minting tokenHash => ∃ ground, .granted tokenHash ground ∈ history
  | .loginUpdating assertion _ | .loginCreating assertion _ =>
    ∃ ground, .registered assertion.credentialID ground ∈ history
  | _ => True

/-- The login challenge that a request has for itself. -/
def AccessProc.held : AccessProc → Option Nat
  | .loginPutting challenge | .loginVerifying _ challenge | .loginUpdating _ challenge
  | .loginCreating _ challenge => some challenge
  | _ => none

/-- A challenge that nothing was granted on and that is in nobody's reach. -/
def AccessWorld.Unspent (world : AccessWorld) (challenge : Nat) : Prop :=
  challenge < world.issued ∧ challenge ∉ answeredChallenges world.history ∧
    world.loginSession ≠ some challenge

/-- No two requests hold one challenge. -/
def accessOutline : Outline AccessWorld AccessProc where
  shared := AccessWorld.Sound code presented
  here world proc := proc.Entitled hashToken code presented world.history ∧
    ∀ challenge, proc.held = some challenge → world.Unspent challenge
  apart one other := ∀ challenge, one.held = some challenge → other.held ≠ some challenge

/-! ### What a step does to the others -/

/-- A step adds records, grants on its own challenge only, and puts only that into the slot. -/
structure AccessWorld.Extends (world after : AccessWorld) (proc next : AccessProc) : Prop where
  history : world.history ⊆ after.history
  issued : world.issued ≤ after.issued
  answered : ∀ challenge ∈ answeredChallenges after.history,
    challenge ∈ answeredChallenges world.history ∨ proc.held = some challenge
  slot : ∀ challenge, after.loginSession = some challenge →
    world.loginSession = some challenge ∨ proc.held = some challenge
  held : ∀ challenge, next.held = some challenge → proc.held = some challenge ∨
    world.loginSession = some challenge ∨ challenge = world.issued

variable {hashToken code presented}

theorem AccessProc.Entitled.mono {history later : List AccessRecord} (grows : history ⊆ later)
    {proc : AccessProc} (entitled : proc.Entitled hashToken code presented history) :
    proc.Entitled hashToken code presented later := by
  cases proc with
  | guarding auth request =>
    exact fun tokens found => (entitled tokens found).imp fun _ record => grows record
  | registering tokenHash proc => exact entitled.imp fun _ record => grows record
  | minting tokenHash => exact entitled.imp fun _ record => grows record
  | loginUpdating assertion challenge => exact entitled.imp fun _ record => grows record
  | loginCreating assertion challenge => exact entitled.imp fun _ record => grows record
  | setup shown proc => exact entitled
  | loginIssuing | loginPutting _ | loginTaking _ | loginVerifying _ _ | answered _ => trivial

/-- A step that extends the world disturbs no other request. -/
theorem AccessWorld.Extends.kept {pool : Pool AccessWorld AccessProc} {index : Nat}
    {proc next : AccessProc} {after : AccessWorld}
    (holds : (accessOutline hashToken code presented).Holds pool)
    (present : pool.procs[index]? = some proc) (extends' : pool.world.Extends after proc next)
    (shared : after.Sound code presented)
    (here : next.Entitled hashToken code presented after.history)
    (own : ∀ challenge, next.held = some challenge → after.Unspent challenge) :
    (accessOutline hashToken code presented).Kept pool index after next where
  shared := shared
  here := ⟨here, own⟩
  others := by
    intro other bystander different there
    obtain ⟨entitled, unspent⟩ := holds.here other bystander there
    have separate := holds.apart index other proc bystander (Ne.symm different) present there
    have apart : ∀ challenge, next.held = some challenge → bystander.held ≠ some challenge := by
      intro challenge mine theirs
      rcases extends'.held challenge mine with before | slot | new
      · exact separate challenge before theirs
      · exact (unspent challenge theirs).2.2 slot
      · exact Nat.lt_irrefl _ (new ▸ (unspent challenge theirs).1)
    refine ⟨⟨entitled.mono extends'.history, fun challenge theirs => ?_⟩, apart,
      fun challenge theirs mine => apart challenge mine theirs⟩
    obtain ⟨issued, unanswered, outside⟩ := unspent challenge theirs
    refine ⟨Nat.lt_of_lt_of_le issued extends'.issued, fun answered => ?_, fun slot => ?_⟩
    · rcases extends'.answered challenge answered with before | mine
      · exact unanswered before
      · exact separate challenge mine theirs
    · rcases extends'.slot challenge slot with before | mine
      · exact outside before
      · exact separate challenge mine theirs

/-! ### What a step does to its own -/

theorem answeredChallenges_concat (history : List AccessRecord) (record : AccessRecord) :
    answeredChallenges (history ++ [record]) =
      answeredChallenges history ++ record.ground.challenge.toList := by
  rw [answeredChallenges, List.filterMap_append]
  cases spent : record.ground.challenge <;> simp [spent, answeredChallenges]

/-- A step that adds no record. -/
theorem AccessWorld.Sound.quiet {world after : AccessWorld} (sound : world.Sound code presented)
    (history : after.history = world.history)
    (rows : ∀ row ∈ after.table, ∃ before ∈ world.table, before.tokenHash = row.tokenHash)
    (passkeys : after.setup.credentials ⊆ world.setup.credentials)
    (issued : world.issued ≤ after.issued)
    (slot : ∀ challenge, after.loginSession = some challenge → world.loginSession = some challenge ∨
      challenge < after.issued ∧ challenge ∉ answeredChallenges world.history)
    (guarded : after.setup.Guarded code after.refused) : after.Sound code presented where
  founded := history ▸ sound.founded
  rows row member := by
    obtain ⟨before, old, same⟩ := rows row member
    rw [← same, history]
    exact sound.rows before old
  passkeys credential member := history ▸ sound.passkeys credential (passkeys member)
  distinct := history ▸ sound.distinct
  fresh challenge answered :=
    Nat.lt_of_lt_of_le (sound.fresh challenge (history ▸ answered)) issued
  slot challenge there := by
    rw [history]
    rcases slot challenge there with before | new
    · exact ⟨Nat.lt_of_lt_of_le (sound.slot challenge before).1 issued,
        (sound.slot challenge before).2⟩
    · exact new
  guarded := guarded

/-- A record with its support, on a challenge that is still unspent if it is on any. -/
theorem AccessWorld.Sound.record {world after : AccessWorld} {record : AccessRecord}
    (sound : world.Sound code presented) (history : after.history = world.history ++ [record])
    (supported : record.ground.Supported code presented world.history)
    (unspent : ∀ challenge, record.ground.challenge = some challenge → world.Unspent challenge)
    (rows : ∀ row ∈ after.table,
      row ∈ world.table ∨ ∃ ground, record = .granted row.tokenHash ground)
    (passkeys : ∀ credential ∈ after.setup.credentials, credential ∈ world.setup.credentials ∨
      ∃ ground, record = .registered credential.id ground)
    (issued : after.issued = world.issued) (slot : after.loginSession = world.loginSession)
    (guarded : after.setup.Guarded code after.refused) : after.Sound code presented where
  founded := history ▸ sound.founded.snoc supported
  rows row member := by
    rw [history]
    rcases rows row member with old | ⟨ground, rfl⟩
    · exact (sound.rows row old).imp fun _ => List.mem_append_left _
    · exact ⟨ground, List.mem_append_right _ List.mem_cons_self⟩
  passkeys credential member := by
    rw [history]
    rcases passkeys credential member with old | ⟨ground, rfl⟩
    · exact (sound.passkeys credential old).imp fun _ => List.mem_append_left _
    · exact ⟨ground, List.mem_append_right _ List.mem_cons_self⟩
  distinct := by
    rw [history, answeredChallenges_concat]
    refine List.nodup_append.2 ⟨sound.distinct, ?_, ?_⟩
    · cases record.ground.challenge <;> simp
    · intro first answered second spent same
      exact (unspent second (Option.mem_toList.1 spent)).2.1 (same ▸ answered)
  fresh challenge answered := by
    rw [history, answeredChallenges_concat, List.mem_append, Option.mem_toList] at answered
    rw [issued]
    exact answered.elim (sound.fresh challenge) fun spent => (unspent challenge spent).1
  slot challenge there := by
    rw [slot] at there
    rw [history, answeredChallenges_concat, List.mem_append, Option.mem_toList, issued]
    refine ⟨(sound.slot challenge there).1, fun answered => ?_⟩
    exact answered.elim (sound.slot challenge there).2 fun spent =>
      (unspent challenge spent).2.2 there
  guarded := guarded

/-- A session created on some ground, with its record. -/
theorem AccessWorld.createSession_eq_some {world after : AccessWorld} {token userAgent : String}
    {ground : Ground}
    (created : world.createSession hashToken token userAgent ground = some after) :
    after.history = world.history ++ [.granted (hashToken token) ground] ∧
      after.table = world.table ++ [⟨hashToken token, userAgent, .format world.setup.now,
        .format (world.setup.now + sessionTTL)⟩] ∧
      after.setup = world.setup ∧ after.loginSession = world.loginSession ∧
      after.issued = world.issued ∧ after.refused = world.refused := by
  unfold AccessWorld.createSession at created
  split at created
  · exact nomatch created
  · cases created
    exact ⟨rfl, rfl, rfl, rfl, rfl, rfl⟩

section Steps

variable {webAuthn : WebAuthn} {pool : Pool AccessWorld AccessProc} {index : Nat}
  {proc next : AccessProc}
  {after : AccessWorld}

/-- A request that creates a session on a ground of its own is answered with it. -/
theorem kept_of_created (holds : (accessOutline hashToken code presented).Holds pool)
    (present : pool.procs[index]? = some proc) {token userAgent : String} {ground : Ground}
    (created : pool.world.createSession hashToken token userAgent ground = some after)
    (supported : ground.Supported code presented pool.world.history)
    (own : ∀ challenge, ground.challenge = some challenge → proc.held = some challenge)
    (response : Response) :
    (accessOutline hashToken code presented).Kept pool index after (.answered response) := by
  obtain ⟨history, table, setup, session, issued, refused⟩ :=
    AccessWorld.createSession_eq_some created
  have sound := holds.shared
  have unspent := (holds.here index proc present).2
  refine AccessWorld.Extends.kept holds present ⟨?_, ?_, ?_, ?_, ?_⟩ ?_ trivial ?_
  · exact history ▸ List.subset_append_left _ _
  · exact Nat.le_of_eq issued.symm
  · intro challenge answered
    rw [history, answeredChallenges_concat, List.mem_append, Option.mem_toList] at answered
    exact answered.imp_right (own challenge)
  · exact fun challenge slot => .inl (session ▸ slot)
  · exact fun challenge held => nomatch held
  · refine sound.record history supported
      (fun challenge spent => unspent challenge (own challenge spent))
      (fun row member => ?_) (fun credential member => .inl (setup ▸ member)) issued session ?_
    · rw [table] at member
      rcases List.mem_append.1 member with old | new
      · exact .inl old
      · cases List.mem_singleton.1 new
        exact .inr ⟨ground, rfl⟩
    · rw [setup, refused]
      exact sound.guarded
  · exact fun challenge held => nomatch held

/-- A request that changes nothing that is on record goes on. -/
theorem kept_of_quiet (holds : (accessOutline hashToken code presented).Holds pool)
    (present : pool.procs[index]? = some proc) (history : after.history = pool.world.history)
    (rows : ∀ row ∈ after.table, ∃ before ∈ pool.world.table, before.tokenHash = row.tokenHash)
    (passkeys : after.setup.credentials ⊆ pool.world.setup.credentials)
    (guarded : after.setup.Guarded code after.refused)
    (session : after.loginSession = pool.world.loginSession)
    (issued : after.issued = pool.world.issued)
    (entitled : next.Entitled hashToken code presented pool.world.history)
    (held : next.held = proc.held ∨ next.held = none) :
    (accessOutline hashToken code presented).Kept pool index after next := by
  have unspent := (holds.here index proc present).2
  have before : ∀ challenge, next.held = some challenge → proc.held = some challenge := by
    intro challenge mine
    rcases held with same | none
    · exact same ▸ mine
    · exact nomatch none.symm.trans mine
  refine AccessWorld.Extends.kept holds present ⟨?_, ?_, ?_, ?_, ?_⟩ ?_ (history ▸ entitled) ?_
  · exact fun record member => history ▸ member
  · exact Nat.le_of_eq issued.symm
  · exact fun challenge answered => .inl (history ▸ answered)
  · exact fun challenge slot => .inl (session ▸ slot)
  · exact fun challenge mine => .inl (before challenge mine)
  · exact holds.shared.quiet history rows passkeys (Nat.le_of_eq issued.symm)
      (fun challenge slot => .inl (session ▸ slot)) guarded
  · intro challenge mine
    obtain ⟨fresh, unanswered, outside⟩ := unspent challenge (before challenge mine)
    exact ⟨issued ▸ fresh, history ▸ unanswered, session ▸ outside⟩

/-- A step of setup or registration, on a ground that supports what it registers. -/
theorem kept_of_register (holds : (accessOutline hashToken code presented).Holds pool)
    (present : pool.procs[index]? = some proc) {stage later : SetupProc} {ground : Ground}
    {outcome : Outcome}
    (registered : pool.world.register webAuthn stage ground outcome = some (after, later))
    (supported : stage.checked → ground.Supported code presented pool.world.history)
    (quiet : ground.challenge = none)
    (entitled : next.Entitled hashToken code presented after.history)
    (idle : next.held = none) :
    (accessOutline hashToken code presented).Kept pool index after next := by
  obtain ⟨⟨setup, follows⟩, stepped, same⟩ := Option.map_eq_some_iff.1 registered
  obtain ⟨rfl, rfl⟩ := Prod.mk.inj same
  have guarded := handleSetup_guarded holds.shared.guarded stepped
  have none' : ∀ challenge, next.held = some challenge → False :=
    fun challenge mine => nomatch idle.symm.trans mine
  rcases handleSetup_credentials stepped with kept | ⟨checked, credential, added⟩
  · have history : pool.world.history ++ (setup.credentials.drop
        pool.world.setup.credentials.length).map (fun credential =>
          AccessRecord.registered credential.id ground) = pool.world.history := by
      rw [kept, List.drop_length, List.map_nil, List.append_nil]
    refine kept_of_quiet holds present history (fun row member => ⟨row, member, rfl⟩)
      (fun credential member => kept ▸ member) guarded rfl rfl ?_ (.inr idle)
    exact history ▸ entitled
  · have history : pool.world.history ++ (setup.credentials.drop
        pool.world.setup.credentials.length).map (fun credential =>
          AccessRecord.registered credential.id ground) =
        pool.world.history ++ [.registered credential.id ground] := by
      rw [added, List.drop_left, List.map_singleton]
    refine AccessWorld.Extends.kept holds present ⟨?_, Nat.le_refl _, ?_, fun _ => .inl, ?_⟩ ?_
      entitled fun challenge mine => (none' challenge mine).elim
    · exact List.subset_append_left _ _
    · intro challenge answered
      have whole : challenge ∈ answeredChallenges (pool.world.history ++
          [AccessRecord.registered credential.id ground]) := history ▸ answered
      rw [answeredChallenges_concat, List.mem_append, Option.mem_toList] at whole
      exact .inl (whole.resolve_right fun spent => nomatch quiet.symm.trans spent)
    · exact fun challenge mine => (none' challenge mine).elim
    · refine holds.shared.record history (supported checked) (fun challenge spent => ?_)
        (fun row member => .inl member) (fun other member => ?_) rfl rfl guarded
      · exact nomatch quiet.symm.trans spent
      · rcases List.mem_append.1 (added ▸ member) with old | new
        · exact .inl old
        · cases List.mem_singleton.1 new
          exact .inr ⟨ground, rfl⟩

/-- The gate goes on with a token whose row it found. -/
theorem serveAuth_found {world later : AuthWorld} {auth follows : AuthProc} {choice : AuthChoice}
    (stepped : serveAuth hashToken world auth choice = some (later, follows))
    {request : AuthRequest} (found : follows.found = some request) :
    auth.found = some request ∨
      ∃ row ∈ world.table, row.tokenHash = hashToken request.tokenFromRequest := by
  cases auth with
  | reading request =>
    simp only [serveAuth] at stepped
    split at stepped
    · cases stepped
      cases found
    · split at stepped
      · cases stepped
        cases found
      · split at stepped
        · cases stepped
          cases found
        · rename_i session read
          cases stepped
          cases found
          exact .inr ⟨session, List.mem_of_find?_eq_some read,
            of_decide_eq_true (List.find?_some read :)⟩
  | sampling request session =>
    cases stepped
    exact .inl found
  | deciding request session now =>
    simp only [serveAuth] at stepped
    split at stepped
    · cases stepped
      cases found
    · split at stepped
      · split at stepped
        · cases stepped
          cases found
        · cases stepped
          exact .inl found
      · cases stepped
        exact .inl found
  | handling request slid =>
    obtain ⟨response, header, rfl, -⟩ := handle_cases stepped
    cases found
  | responding response header =>
    cases stepped
    cases found
  | answered => cases stepped

/-- A step of the gate, which reads the row of the token. -/
theorem kept_of_guard (holds : (accessOutline hashToken code presented).Holds pool)
    {auth follows : AuthProc} {request : GuardedRequest} {choice : AuthChoice} {world : AuthWorld}
    (present : pool.procs[index]? = some (.guarding auth request))
    (stepped : serveAuth hashToken ⟨pool.world.setup.now, pool.world.table, none⟩ auth choice =
      some (world, follows)) :
    (accessOutline hashToken code presented).Kept pool index
      { pool.world with table := world.table } (.guarding follows request) := by
  refine kept_of_quiet holds present rfl ?_ (List.Subset.refl _) holds.shared.guarded rfl rfl ?_
    (.inr rfl)
  · intro row member
    have kept : world.table ⊆ pool.world.table → ∃ before ∈ pool.world.table,
        before.tokenHash = row.tokenHash := fun smaller => ⟨row, smaller member, rfl⟩
    rcases serveAuth_cases stepped with ⟨-, -, table⟩ | ⟨_, _, _, -, rfl, -⟩ |
      ⟨_, _, _, -, -, -, table, -⟩ | ⟨_, _, -, -, rfl⟩
    · exact kept table
    · obtain ⟨before, old, rfl⟩ := List.mem_map.1 member
      refine ⟨before, old, ?_⟩
      split <;> rfl
    · exact kept table
    · exact kept (List.Subset.refl _)
  · intro tokens found
    rcases serveAuth_found stepped found with before | ⟨row, member, same⟩
    · exact (holds.here index _ present).1 tokens before
    · exact same ▸ holds.shared.rows row member

theorem start_entitled {tokenHash : String} {history : List AccessRecord} {ground : Ground}
    (granted : .granted tokenHash ground ∈ history) (request : GuardedRequest) :
    (request.start tokenHash).Entitled hashToken code presented history ∧
      (request.start tokenHash).held = none := by
  cases request with
  | registerBegin keyName =>
    cases keyName with
    | none => exact ⟨trivial, rfl⟩
    | some keyName =>
      by_cases unnamed : keyName = ""
      · rw [GuardedRequest.start, if_pos unnamed]
        exact ⟨trivial, rfl⟩
      · rw [GuardedRequest.start, if_neg unnamed]
        exact ⟨⟨ground, granted⟩, rfl⟩
  | registerFinish keyName attestation => exact ⟨⟨ground, granted⟩, rfl⟩
  | mintToken => exact ⟨⟨ground, granted⟩, rfl⟩

/-- What is left of a request that is answered, or that holds what it held. -/
theorem kept_of_same (holds : (accessOutline hashToken code presented).Holds pool)
    (present : pool.procs[index]? = some proc)
    (entitled : next.Entitled hashToken code presented pool.world.history)
    (held : next.held = proc.held ∨ next.held = none) :
    (accessOutline hashToken code presented).Kept pool index pool.world next :=
  kept_of_quiet holds present rfl (fun row member => ⟨row, member, rfl⟩) (List.Subset.refl _)
    holds.shared.guarded rfl rfl entitled held

theorem finishing_of_checked {stage : SetupProc} (checked : stage.checked) : stage.finishing := by
  cases stage <;> first | rfl | exact nomatch checked

theorem register_history {world after : AccessWorld} {stage later : SetupProc} {ground : Ground}
    {outcome : Outcome}
    (registered : world.register webAuthn stage ground outcome = some (after, later))
    {record : AccessRecord} (member : record ∈ world.history) : record ∈ after.history := by
  obtain ⟨_, -, same⟩ := Option.map_eq_some_iff.1 registered
  rw [← (Prod.mk.inj same).1]
  exact List.mem_append_left _ member

/-- A setup request stays true to the code it presented. -/
theorem entitled_of_register {world after : AccessWorld} {shown : String}
    {stage later : SetupProc} {ground : Ground} {outcome : Outcome} {history : List AccessRecord}
    (sound : world.Sound code presented)
    (entitled : AccessProc.Entitled hashToken code presented history (.setup shown stage))
    (registered : world.register webAuthn stage ground outcome = some (after, later)) :
    AccessProc.Entitled hashToken code presented after.history (.setup shown later) := by
  obtain ⟨⟨setup, follows⟩, stepped, same⟩ := Option.map_eq_some_iff.1 registered
  obtain ⟨-, rfl⟩ := Prod.mk.inj same
  obtain ⟨finishing, guess, checked⟩ := handleSetup_checked stepped
  refine ⟨fun later => entitled.1 (finishing later),
    fun other there => entitled.2.1 other (guess other there), fun past => ?_⟩
  rcases checked past with before | ⟨asked, active⟩
  · exact entitled.2.2 before
  · rw [← entitled.2.1 _ asked]
    exact sound.guarded.code.resolve_right active

theorem handleAccess_kept (loaded : webAuthn.AcceptsLoaded)
    (holds : (accessOutline hashToken code presented).Holds pool)
    (present : pool.procs[index]? = some proc) {choice : AccessChoice}
    (stepped : handleAccess hashToken webAuthn pool.world proc choice = some (after, next)) :
    (accessOutline hashToken code presented).Kept pool index after next := by
  obtain ⟨entitled, unspent⟩ := holds.here index proc present
  revert stepped
  fun_cases handleAccess hashToken webAuthn pool.world proc choice <;> intro stepped
  case case2 shown _ =>
    obtain ⟨world, created, same⟩ := Option.map_eq_some_iff.1 stepped
    cases same
    exact kept_of_created holds present created ⟨entitled.2.2 rfl, entitled.1 rfl⟩
      (fun challenge spent => nomatch spent) _
  case case3 shown stage _ =>
    obtain ⟨⟨world, later⟩, registered, same⟩ := Option.map_eq_some_iff.1 stepped
    cases same
    exact kept_of_register holds present registered
      (fun checked => ⟨entitled.2.2 checked, entitled.1 (finishing_of_checked checked)⟩) rfl
      (entitled_of_register holds.shared entitled registered) rfl
  case case4 tokens slid request =>
    cases stepped
    obtain ⟨ground, granted⟩ := entitled tokens rfl
    obtain ⟨entitled, idle⟩ := start_entitled granted request
    exact kept_of_same holds present entitled (.inr idle)
  case case5 auth request _ go =>
    obtain ⟨⟨world, later⟩, served, same⟩ := Option.map_eq_some_iff.1 stepped
    cases same
    exact kept_of_guard holds present served
  case case7 tokenHash stage _ =>
    obtain ⟨⟨world, later⟩, registered, same⟩ := Option.map_eq_some_iff.1 stepped
    cases same
    exact kept_of_register holds present registered (fun _ => entitled) rfl
      (entitled.imp fun _ => register_history registered) rfl
  case case9 tokenHash _ =>
    obtain ⟨world, created, same⟩ := Option.map_eq_some_iff.1 stepped
    cases same
    exact kept_of_created holds present created entitled (fun challenge spent => nomatch spent) _
  case case11 =>
    cases stepped
    have sound := holds.shared
    refine AccessWorld.Extends.kept holds present
      ⟨List.Subset.refl _, Nat.le_succ _, fun _ => .inl, fun _ => .inl, ?_⟩ ?_ trivial ?_
    · exact fun challenge mine => .inr (.inr (Option.some.inj mine).symm)
    · exact sound.quiet rfl (fun row member => ⟨row, member, rfl⟩) (List.Subset.refl _)
        (Nat.le_succ _) (fun _ => .inl) sound.guarded
    · intro challenge mine
      obtain rfl := Option.some.inj mine
      exact ⟨Nat.lt_succ_self _, fun answered => Nat.lt_irrefl _ (sound.fresh _ answered),
        fun slot => Nat.lt_irrefl _ (sound.slot _ slot).1⟩
  case case12 challenge =>
    cases stepped
    have sound := holds.shared
    obtain ⟨issued, unanswered, -⟩ := unspent challenge rfl
    refine AccessWorld.Extends.kept holds present
      ⟨List.Subset.refl _, Nat.le_refl _, fun _ => .inl, fun _ => .inr, fun _ mine => nomatch mine⟩
      ?_ trivial fun _ mine => nomatch mine
    exact sound.quiet rfl (fun row member => ⟨row, member, rfl⟩) (List.Subset.refl _)
      (Nat.le_refl _) (fun _ slot => .inr (Option.some.inj slot ▸ ⟨issued, unanswered⟩))
      sound.guarded
  case case14 assertion challenge slot =>
    cases stepped
    have sound := holds.shared
    obtain ⟨issued, unanswered⟩ := sound.slot challenge slot
    refine AccessWorld.Extends.kept holds present
      ⟨List.Subset.refl _, Nat.le_refl _, fun _ => .inl, fun _ filled => (nomatch filled), ?_⟩ ?_
      trivial ?_
    · exact fun _ mine => .inr (.inl (Option.some.inj mine ▸ slot))
    · exact sound.quiet rfl (fun row member => ⟨row, member, rfl⟩) (List.Subset.refl _)
        (Nat.le_refl _) (fun _ filled => nomatch filled) sound.guarded
    · exact fun _ mine => Option.some.inj mine ▸ ⟨issued, unanswered, fun filled => nomatch filled⟩
  case case16 assertion challenge accepted _ =>
    cases stepped
    obtain ⟨credential, member, same⟩ := loaded _ _ _ accepted
    have known : ∃ ground, .registered assertion.credentialID ground ∈ pool.world.history :=
      same ▸ holds.shared.passkeys credential member
    exact kept_of_same holds present known (.inl rfl)
  case case17 => exact nomatch stepped
  case case19 assertion challenge _ =>
    cases stepped
    exact kept_of_same holds present entitled (.inl rfl)
  case case21 assertion challenge _ =>
    obtain ⟨world, created, same⟩ := Option.map_eq_some_iff.1 stepped
    cases same
    exact kept_of_created holds present created entitled (fun _ spent => spent) _
  case case22 => exact nomatch stepped
  -- the rest only answer
  all_goals
    cases stepped
    exact kept_of_same holds present trivial (.inr rfl)

end Steps

/-! ### Every run -/

/-- The requests that finish setup present only such codes. -/
def OnlyPresents (presented : String → Prop) (_ : Pool AccessWorld AccessProc) :
    Move AccessRequest AccessChoice AccessEvent → Prop
  | .arrive (.setup (.setupFinish finish)) => presented finish.code
  | _ => True

instance OnlyPresents.decidable [DecidablePred presented] (pool : Pool AccessWorld AccessProc) :
    ∀ move, Decidable (OnlyPresents presented pool move)
  | .arrive (.setup (.setupFinish finish)) => inferInstanceAs (Decidable (presented finish.code))
  | .arrive (.setup (.setupBegin _)) | .arrive .loginBegin | .arrive (.loginFinish _)
  | .arrive (.guarded _ _) | .advance _ _ | .occur _ => .isTrue trivial

theorem enter_here {pool : Pool AccessWorld AccessProc} (request : AccessRequest)
    (permitted : OnlyPresents presented pool (.arrive request)) :
    request.enter.Entitled hashToken code presented pool.world.history ∧
      request.enter.held = none := by
  cases request with
  | setup request =>
    cases request with
    | setupBegin body =>
      exact ⟨⟨fun finishing => (nomatch finishing), fun _ guess => (nomatch guess),
        fun checked => (nomatch checked)⟩, rfl⟩
    | setupFinish finish =>
      exact ⟨⟨fun _ => permitted, fun _ guess => (Option.some.inj guess).symm,
        fun checked => (nomatch checked)⟩, rfl⟩
  | guarded tokens request => exact ⟨fun _ found => (nomatch found), rfl⟩
  | loginBegin => exact ⟨trivial, rfl⟩
  | loginFinish assertion => exact ⟨trivial, rfl⟩

theorem occur_frame {world after : AccessWorld} {event : AccessEvent}
    (occurred : world.occur event = some after) :
    after.history = world.history ∧ after.loginSession = world.loginSession ∧
      after.issued = world.issued ∧ after.refused = world.refused ∧
      after.setup.setupCode = world.setup.setupCode ∧
      after.setup.setupTries = world.setup.setupTries ∧ after.table ⊆ world.table ∧
      after.setup.credentials ⊆ world.setup.credentials := by
  have rows := List.Subset.refl world.table
  have passkeys := List.Subset.refl world.setup.credentials
  cases event with
  | wait duration =>
    cases occurred
    exact ⟨rfl, rfl, rfl, rfl, rfl, rfl, rows, passkeys⟩
  | sweep sampled =>
    cases occurred
    exact ⟨rfl, rfl, rfl, rfl, rfl, rfl,
      AuthSessions.deleteExpiredAuthSessions_subset world.table sampled, passkeys⟩
  | revoke tokenHash =>
    cases occurred
    exact ⟨rfl, rfl, rfl, rfl, rfl, rfl,
      AuthSessions.deleteAuthSession_subset world.table tokenHash, passkeys⟩
  | deleteCredential id =>
    cases occurred
    exact ⟨rfl, rfl, rfl, rfl, rfl, rfl, rows, List.filter_sublist.subset⟩
  | resetAuth =>
    cases occurred
    exact ⟨rfl, rfl, rfl, rfl, rfl, rfl, List.nil_subset _, List.nil_subset _⟩

theorem accessOutline_run (hashToken : String → String) {webAuthn : WebAuthn}
    (loaded : webAuthn.AcceptsLoaded) (code : String) (now : Int)
    {moves : List (Move AccessRequest AccessChoice AccessEvent)}
    {final : Pool AccessWorld AccessProc}
    (run : Run (accessMachine hashToken webAuthn).next (OnlyPresents presented)
      { world := .firstStart code now, procs := [] } moves final) :
    (accessOutline hashToken code presented).Holds final := by
  refine Outline.holds_of_run _ ?_ ?_ ?_ (Outline.holds_empty _ ?_) run
  · intro pool request holds permitted
    obtain ⟨entitled, idle⟩ := enter_here request permitted
    refine ⟨⟨entitled, fun challenge mine => (nomatch idle.symm.trans mine)⟩, fun proc _ =>
      ⟨fun challenge mine => (nomatch idle.symm.trans mine),
        fun challenge _ mine => (nomatch idle.symm.trans mine)⟩⟩
  · exact fun pool index choice proc world after holds _ present stepped =>
      handleAccess_kept loaded holds present stepped
  · intro pool event world holds _ occurred
    obtain ⟨history, session, issued, refused, setupCode, tries, rows, passkeys⟩ :=
      occur_frame occurred
    refine ⟨?_, fun index proc present => ?_, holds.apart⟩
    · refine holds.shared.quiet history (fun row member => ⟨row, rows member, rfl⟩) passkeys
        (Nat.le_of_eq issued.symm) (fun _ slot => .inl (session ▸ slot)) ?_
      rw [refused]
      exact holds.shared.guarded.same setupCode tries
    · obtain ⟨entitled, unspent⟩ := holds.here index proc present
      refine ⟨history ▸ entitled, fun challenge mine => ?_⟩
      obtain ⟨fresh, unanswered, outside⟩ := unspent challenge mine
      exact ⟨issued ▸ fresh, history ▸ unanswered, session ▸ outside⟩
  · exact ⟨.nil, nofun, nofun, List.nodup_nil, nofun, nofun,
      ⟨.inl rfl, fun _ => ⟨rfl, (by decide : 0 < maxSetupTries)⟩, Nat.zero_le _⟩⟩

/-- Access has a foundation: whatever requests overlap, each grant on record is supported by
the records before it, ending at requests that presented the setup code; each session and each
passkey is on record; no login challenge is answered twice; no code is tried more often than
it may be. So where nobody presents the code, there is no access at all. -/
theorem access_is_founded (hashToken : String → String) (webAuthn : WebAuthn)
    (loaded : webAuthn.AcceptsLoaded) (code : String) (now : Int)
    {moves : List (Move AccessRequest AccessChoice AccessEvent)}
    {final : Pool AccessWorld AccessProc}
    (run : Run (accessMachine hashToken webAuthn).next (OnlyPresents presented)
      { world := .firstStart code now, procs := [] } moves final) :
    (∀ before record after, final.world.history = before ++ record :: after →
        record.ground.Supported code presented before) ∧
      (∀ row ∈ final.world.table,
        ∃ ground, .granted row.tokenHash ground ∈ final.world.history) ∧
      (∀ credential ∈ final.world.setup.credentials,
        ∃ ground, .registered credential.id ground ∈ final.world.history) ∧
      (answeredChallenges final.world.history).Nodup ∧
      final.world.refused ≤ maxSetupTries ∧
      ((∀ shown, presented shown → shown ≠ code) →
        final.world.table = [] ∧ final.world.setup.credentials = []) := by
  have sound := (accessOutline_run hashToken loaded code now run).shared
  refine ⟨fun before record after split => sound.founded.supported split, sound.rows,
    sound.passkeys, sound.distinct, sound.guarded.bounded, fun unpresented => ?_⟩
  have nothing : final.world.history = [] := by
    cases whole : final.world.history with
    | nil => rfl
    | cons record rest =>
      have supported : record.ground.Supported code presented [] :=
        sound.founded.supported (show final.world.history = [] ++ record :: rest by exact whole)
      cases ground : record.ground with
      | setupCode shown =>
        rw [ground] at supported
        exact absurd supported.1 (unpresented shown supported.2)
      | passkey id challenge =>
        rw [ground] at supported
        obtain ⟨_, none⟩ := supported
        exact (List.not_mem_nil none).elim
      | session tokenHash =>
        rw [ground] at supported
        obtain ⟨_, none⟩ := supported
        exact (List.not_mem_nil none).elim
  refine ⟨List.eq_nil_iff_forall_not_mem.2 fun row member => ?_,
    List.eq_nil_iff_forall_not_mem.2 fun credential member => ?_⟩
  · obtain ⟨_, record⟩ := sound.rows row member
    exact List.not_mem_nil (nothing ▸ record)
  · obtain ⟨_, record⟩ := sound.passkeys credential member
    exact List.not_mem_nil (nothing ▸ record)

end Provenance

/-- Every call goes through, with this token. -/
def throughWith (token : String) : AccessChoice := ⟨.ok, token, ""⟩

/-- The library as its documentation has it: the challenge of the session is answered, with a
passkey of the user. -/
def checkingChallenge : WebAuthn where
  finishRegistration := answersChallenge
  finishDiscoverableLogin challenge credentials assertion :=
    assertion.challenge = challenge && credentials.any (·.id = assertion.credentialID)

/-- Setup from its first request to its session, whose token then mints another one, and a login
with the passkey. -/
def setupMintLogin : List (Move AccessRequest AccessChoice AccessEvent) :=
  .arrive (.setup (.setupBegin (some ⟨"ABC234", "owner", "laptop"⟩))) ::
    List.replicate 6 (.advance 0 (throughWith "")) ++
  .arrive (.setup (.setupFinish ⟨"ABC234", "laptop", ⟨0, "k"⟩⟩)) ::
    List.replicate 9 (.advance 1 (throughWith "first")) ++
  .arrive (.guarded ⟨.plain, "first", ""⟩ .mintToken) ::
    List.replicate 5 (.advance 2 (throughWith "second")) ++
  .arrive .loginBegin :: List.replicate 2 (.advance 3 (throughWith "")) ++
  .arrive (.loginFinish ⟨0, "k"⟩) :: List.replicate 4 (.advance 4 (throughWith "third"))

theorem access_is_founded_setupMintLogin :
    ∃ final : Pool AccessWorld AccessProc,
      final.world.history = [.registered "k" (.setupCode "ABC234"),
        .granted "first" (.setupCode "ABC234"), .granted "second" (.session "first"),
        .granted "third" (.passkey "k" 0)] ∧
      (∀ before record after, final.world.history = before ++ record :: after →
        record.ground.Supported "ABC234" (· = "ABC234") before) ∧
      final.world.refused ≤ maxSetupTries := by
  have loaded : checkingChallenge.AcceptsLoaded := by
    intro challenge credentials assertion accepted
    obtain ⟨credential, member, same⟩ := List.any_eq_true.1 (Bool.and_eq_true _ _ ▸ accepted).2
    exact ⟨credential, member, of_decide_eq_true same⟩
  obtain ⟨final, done, recorded⟩ := exists_of_exec (accessMachine id checkingChallenge).next
    { world := .firstStart "ABC234" 0, procs := [] } setupMintLogin
    (fun pool => pool.world.history = [.registered "k" (.setupCode "ABC234"),
        .granted "first" (.setupCode "ABC234"), .granted "second" (.session "first"),
        .granted "third" (.passkey "k" 0)]) rfl
  have founded := access_is_founded id checkingChallenge loaded "ABC234" 0
    (Run.of_exec done (by decide) : Run _ (OnlyPresents (· = "ABC234")) _ _ _)
  exact ⟨final, of_decide_eq_true recorded, founded.1, founded.2.2.2.2.1⟩

end Multimux
