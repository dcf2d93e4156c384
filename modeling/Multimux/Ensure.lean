/-
This file models `Ensure`, which keeps a CA and a leaf certificate valid for
the daemon's names, one rename at a time. A certificate and its key are two
files, so a process that stops between the two renames leaves a pair that does
not match. A leaf in that state is recognised and replaced by the next `Ensure`.
A CA is not: its pair is loaded unchecked, and when the stopped `Ensure` was
replacing an older CA, whose key is still there, no leaf can be signed until
the new CA is about to expire.
-/

import Multimux.Certificates

namespace Multimux

/-! ### The files -/

/-- A PEM file. Renames leave each file whole, so that one is garbled only from outside. -/
inductive PemFile (Content : Type)
  | missing
  | garbled
  | holds (content : Content)
  deriving DecidableEq

/-- `ca.pem`, `ca.key`, `cert.pem` and `key.pem`. -/
structure PKIFiles where
  caCert : PemFile Certificate
  caKey : PemFile Nat
  leafCert : PemFile Certificate
  leafKey : PemFile Nat
  deriving DecidableEq

/-- The directory, and how many key pairs were generated so far. -/
structure PKIWorld where
  files : PKIFiles
  issued : Nat
  deriving DecidableEq

/-- An empty directory. -/
def PKIWorld.fresh : PKIWorld := ⟨⟨.missing, .missing, .missing, .missing⟩, 0⟩

/-! ### Lifetimes and readings -/

/-- How long an authority is valid. -/
def caValidity : Int := 10 * 365 * 24 * hour

/-- How long a leaf is valid. -/
def leafValidity : Int := 90 * 24 * hour

/-- A leaf with less than this left is rotated. -/
def leafRotateUnder : Int := 30 * 24 * hour

/-- An authority with less than this left is replaced. -/
def caRenewUnder : Int := 30 * 24 * hour

/-- The readings of the clock in one `Ensure`, in the order in which it may take them. -/
structure EnsureClock where
  expiry : Int
  caFrom : Int
  caUntil : Int
  rotation : Int
  verification : Int
  leafUntil : Int
  leafFrom : Int

/-- Why `Ensure` recreated the CA. -/
inductive CARegen
  | none
  | hostnames
  | expiring
  deriving DecidableEq

/-- The errors of `Ensure`. -/
inductive EnsureError
  | noHostnames
  | badCACert
  | badCAKey
  | refusedConstraints
  | keyMismatch
  deriving DecidableEq

/-! ### Decisions -/

/-- What `loadCA` finds. The pair is not compared. -/
inductive LoadedCA
  | absent
  | unreadable (error : EnsureError)
  | loaded (cert : Certificate) (key : Nat)

/-- `loadCA`, which does not compare the certificate with its key. -/
def PKIFiles.loadCA (files : PKIFiles) : LoadedCA :=
  match files.caCert, files.caKey with
  | .missing, _ | _, .missing => .absent
  | .garbled, _ => .unreadable .badCACert
  | .holds _, .garbled => .unreadable .badCAKey
  | .holds cert, .holds key => .loaded cert key

/-- Whether a CA that was loaded is due for a replacement. -/
def Certificate.regenerates (cert : Certificate) (names : List (List Char)) (clock : EnsureClock) :
    CARegen :=
  if cert.names ≠ names then .hostnames
  else if ¬ clock.expiry < cert.notAfter - caRenewUnder then .expiring
  else .none

/-- `tls.LoadX509KeyPair` of the leaf succeeds. -/
def PKIFiles.leafPaired (files : PKIFiles) (leaf : Certificate) : Bool :=
  files.leafKey = .holds leaf.key

/-- The leaf is missing, runs out, is for other names, or does not fit its key or the authority. -/
def PKIFiles.leafNeedsRotation (files : PKIFiles) (names : List (List Char))
    (clock : EnsureClock) : Bool :=
  match files.leafCert with
  | .missing | .garbled => true
  | .holds leaf =>
    if leaf.notAfter - clock.rotation < leafRotateUnder then true
    else if leaf.names ≠ names then true
    else if ¬ files.leafPaired leaf then true
    else
      match files.caCert with
      | .missing | .garbled => true
      | .holds ca => ¬ leaf.verify ca clock.verification

/-! ### Ensure -/

/-- Where an `Ensure` stands: the pair it is about to rename into place, or its result. -/
inductive EnsurePlace
  | loading
  | renamingCACert (cert : Certificate) (key : Nat) (regenerated : CARegen)
  | renamingCAKey (cert : Certificate) (key : Nat) (regenerated : CARegen)
  | checkingLeaf (cert : Certificate) (key : Nat) (regenerated : CARegen)
  | renamingLeafCert (leaf : Certificate) (key : Nat) (regenerated : CARegen)
  | renamingLeafKey (key : Nat) (regenerated : CARegen)
  | returned (regenerated : CARegen) (error : Option EnsureError)

/-- The certificate of a new CA. -/
def newCA (names : List (List Char)) (clock : EnsureClock) (key : Nat) : Certificate where
  key
  signer := key
  names
  notBefore := certificateTime (clock.caFrom - hour)
  notAfter := certificateTime (clock.caUntil + caValidity)

/-- The certificate of a new leaf, which does not outlive its CA. -/
def newLeaf (ca : Certificate) (names : List (List Char)) (clock : EnsureClock) (key : Nat) :
    Certificate where
  key
  signer := ca.key
  names
  notBefore := certificateTime (clock.leafFrom - hour)
  notAfter := certificateTime (min (clock.leafUntil + leafValidity) ca.notAfter)

/-- `createCA`, up to its first rename. A CA that could not be loaded again is not written. -/
def PKIWorld.createCA (world : PKIWorld) (names : List (List Char)) (clock : EnsureClock)
    (regenerated : CARegen) : PKIWorld × EnsurePlace :=
  let key := world.issued
  ({ world with issued := world.issued + 1 },
    if names.all constraintParses then
      .renamingCACert (newCA names clock key) key regenerated
    else .returned regenerated (some .refusedConstraints))

/-- `createLeaf`, up to its first rename. `CreateCertificate` compares the CA's pair. -/
def PKIWorld.createLeaf (world : PKIWorld) (ca : Certificate) (caKey : Nat)
    (names : List (List Char)) (clock : EnsureClock) (regenerated : CARegen) :
    PKIWorld × EnsurePlace :=
  let key := world.issued
  ({ world with issued := world.issued + 1 },
    if ca.key = caKey then .renamingLeafCert (newLeaf ca names clock key) key regenerated
    else .returned regenerated (some .keyMismatch))

/-- `Ensure`, one rename at a time. -/
def stepEnsure (names : List (List Char)) (clock : EnsureClock) :
    PKIWorld × EnsurePlace → PKIWorld × EnsurePlace
  | (world, .loading) =>
    if names = [] then (world, .returned .none (some .noHostnames))
    else
      match world.files.loadCA with
      | .absent => world.createCA names clock .none
      | .unreadable error => (world, .returned .none (some error))
      | .loaded cert key =>
        if cert.regenerates names clock = .none then (world, .checkingLeaf cert key .none)
        else world.createCA names clock (cert.regenerates names clock)
  | (world, .renamingCACert cert key regenerated) =>
    ({ world with files.caCert := .holds cert }, .renamingCAKey cert key regenerated)
  | (world, .renamingCAKey cert key regenerated) =>
    ({ world with files.caKey := .holds key }, .checkingLeaf cert key regenerated)
  | (world, .checkingLeaf cert key regenerated) =>
    if world.files.leafNeedsRotation names clock then
      world.createLeaf cert key names clock regenerated
    else (world, .returned regenerated none)
  | (world, .renamingLeafCert leaf key regenerated) =>
    ({ world with files.leafCert := .holds leaf }, .renamingLeafKey key regenerated)
  | (world, .renamingLeafKey key regenerated) =>
    ({ world with files.leafKey := .holds key }, .returned regenerated none)
  | (world, .returned regenerated error) => (world, .returned regenerated error)

/-- An `Ensure` that stops after some steps. -/
def stopAfter (names : List (List Char)) (clock : EnsureClock) (steps : Nat) (world : PKIWorld) :
    PKIWorld × EnsurePlace :=
  (stepEnsure names clock)^[steps] (world, .loading)

/-- An `Ensure` that is not stopped: it has returned after six steps. -/
def ensure (names : List (List Char)) (clock : EnsureClock) (world : PKIWorld) :
    PKIWorld × EnsurePlace :=
  stopAfter names clock 6 world

/-! ### What is asked -/

/-- A CA certificate beside its key, and a leaf that chains to it beside its own. -/
def PKIFiles.Sound (files : PKIFiles) : Prop :=
  ∃ ca leaf, files.caCert = .holds ca ∧ files.caKey = .holds ca.key ∧
    files.leafCert = .holds leaf ∧ files.leafKey = .holds leaf.key ∧ leaf.ChainsTo ca

/-- An `Ensure` from here succeeds, and what it leaves is sound. -/
def Recovers (names : List (List Char)) (clock : EnsureClock) (world : PKIWorld) : Prop :=
  ∃ regenerated after, ensure names clock world = (after, .returned regenerated none) ∧
    after.files.Sound

/-- One `Ensure`, which may stop anywhere. -/
structure EnsureCall where
  names : List (List Char)
  clock : EnsureClock
  steps : Nat

/-- One call, up to where it stops. -/
def stepPKI (world : PKIWorld) (call : EnsureCall) : Option PKIWorld :=
  some (stopAfter call.names call.clock call.steps world).1

/-- A directory that a successful `Ensure` left, whatever was done to it before that. -/
def PKIWorld.LeftBySuccess (world : PKIWorld) : Prop :=
  ∃ history earlier names clock regenerated,
    Run stepPKI anything .fresh history earlier ∧
      ensure names clock earlier = (world, .returned regenerated none)

/-- The `Ensure` is to replace a CA, it stops between the two renames of that, and the new CA is
not about to expire when the next one reads the clock. -/
def TornRegeneration (world : PKIWorld) (names : List (List Char)) (clock next : EnsureClock)
    (steps : Nat) : Prop :=
  (∃ ca, world.files.caCert = .holds ca ∧ ca.regenerates names clock ≠ .none) ∧ steps = 2 ∧
    next.expiry < certificateTime (clock.caUntil + caValidity) - caRenewUnder

/-! ### What holds of the files in every state -/

/-- The keys on disk were generated, files are whole, and a leaf under the present CA was signed
while the CA's key was there. -/
structure PKIWorld.Consistent (world : PKIWorld) : Prop where
  caIssued : ∀ ca, world.files.caCert = .holds ca → ca.key < world.issued
  leafIssued : ∀ leaf, world.files.leafCert = .holds leaf → leaf.signer < world.issued
  wholeCert : world.files.caCert ≠ .garbled
  wholeKey : world.files.caKey ≠ .garbled
  paired : ∀ ca leaf, world.files.caCert = .holds ca → world.files.leafCert = .holds leaf →
    leaf.signer = ca.key → world.files.caKey = .holds ca.key

/-- The CA certificate is beside its key. -/
def PKIFiles.CAPaired (files : PKIFiles) (ca : Certificate) : Prop :=
  files.caCert = .holds ca ∧ files.caKey = .holds ca.key

/-- What an `Ensure` relies on where it stands. -/
def EnsurePlace.Fits (world : PKIWorld) : EnsurePlace → Prop
  | .loading => True
  | .renamingCACert cert key _ => cert.key = key ∧ key < world.issued ∧
      ∀ leaf, world.files.leafCert = .holds leaf → leaf.signer ≠ key
  | .renamingCAKey cert key _ => world.files.caCert = .holds cert ∧ cert.key = key
  | .checkingLeaf cert key _ => world.files.caCert = .holds cert ∧ world.files.caKey = .holds key
  | .renamingLeafCert leaf key _ => leaf.key = key ∧
      ∃ ca, world.files.CAPaired ca ∧ leaf.signer = ca.key
  | .renamingLeafKey _ _ => ∃ ca, world.files.CAPaired ca
  | .returned _ error => error = none → ∃ ca, world.files.CAPaired ca

/-- A leaf that is kept chains to the CA on disk and is beside its key. -/
theorem PKIFiles.leafNeedsRotation_eq_false {files : PKIFiles} {names : List (List Char)}
    {clock : EnsureClock} (kept : files.leafNeedsRotation names clock = false) :
    ∃ ca leaf, files.caCert = .holds ca ∧ files.leafCert = .holds leaf ∧
      files.leafKey = .holds leaf.key ∧ leaf.ChainsTo ca := by
  unfold PKIFiles.leafNeedsRotation at kept
  split at kept
  · cases kept
  · cases kept
  · rename_i leaf here
    split at kept
    · cases kept
    · split at kept
      · cases kept
      · split at kept
        · cases kept
        · rename_i paired
          split at kept
          · cases kept
          · cases kept
          · rename_i ca root
            have verified : leaf.verify ca clock.verification = true := by simpa using kept
            exact ⟨ca, leaf, root, here, by simpa [PKIFiles.leafPaired] using paired,
              (of_decide_eq_true verified).1⟩

section Steps

variable {names : List (List Char)} {clock : EnsureClock} {world : PKIWorld}

theorem PKIWorld.Consistent.createCA (consistent : world.Consistent) (regenerated : CARegen) :
    (world.createCA names clock regenerated).1.Consistent ∧
      EnsurePlace.Fits (world.createCA names clock regenerated).1
        (world.createCA names clock regenerated).2 := by
  refine ⟨⟨?_, ?_, consistent.wholeCert, consistent.wholeKey, consistent.paired⟩, ?_⟩
  · intro ca held
    exact Nat.lt_succ_of_lt (consistent.caIssued ca held)
  · intro leaf held
    exact Nat.lt_succ_of_lt (consistent.leafIssued leaf held)
  · simp only [PKIWorld.createCA]
    split
    · refine ⟨rfl, Nat.lt_succ_self _, fun leaf held => ?_⟩
      exact Nat.ne_of_lt (consistent.leafIssued leaf held)
    · exact nofun

/-- One step keeps the files consistent. -/
theorem stepEnsure_consistent {place : EnsurePlace} (consistent : world.Consistent)
    (fits : place.Fits world) :
    (stepEnsure names clock (world, place)).1.Consistent ∧
      EnsurePlace.Fits (stepEnsure names clock (world, place)).1
        (stepEnsure names clock (world, place)).2 := by
  cases place with
  | loading =>
    simp only [stepEnsure]
    split
    · exact ⟨consistent, nofun⟩
    · split
      · exact consistent.createCA .none
      · exact ⟨consistent, nofun⟩
      · rename_i cert key found
        split
        · refine ⟨consistent, ?_⟩
          unfold PKIFiles.loadCA at found
          split at found <;> cases found
          rename_i heldCert heldKey
          exact ⟨heldCert, heldKey⟩
        · exact consistent.createCA _
  | renamingCACert cert key regenerated =>
    obtain ⟨rfl, issued, other⟩ := fits
    refine ⟨⟨?_, consistent.leafIssued, nofun, consistent.wholeKey, ?_⟩, rfl, rfl⟩
    · rintro ca ⟨⟩
      exact issued
    · rintro ca leaf ⟨⟩ held signed
      exact absurd signed (other leaf held)
  | renamingCAKey cert key regenerated =>
    obtain ⟨held, rfl⟩ := fits
    refine ⟨⟨consistent.caIssued, consistent.leafIssued, consistent.wholeCert, nofun, ?_⟩,
      held, rfl⟩
    intro ca leaf present _ _
    cases held.symm.trans present
    rfl
  | checkingLeaf cert key regenerated =>
    obtain ⟨heldCert, heldKey⟩ := fits
    simp only [stepEnsure]
    split
    · simp only [PKIWorld.createLeaf]
      refine ⟨⟨?_, ?_, consistent.wholeCert, consistent.wholeKey, consistent.paired⟩, ?_⟩
      · intro ca held
        exact Nat.lt_succ_of_lt (consistent.caIssued ca held)
      · intro leaf held
        exact Nat.lt_succ_of_lt (consistent.leafIssued leaf held)
      · split
        · rename_i same
          exact ⟨rfl, cert, ⟨heldCert, same ▸ heldKey⟩, rfl⟩
        · exact nofun
    · rename_i kept
      obtain ⟨ca, leaf, root, here, -, signed, -⟩ :=
        PKIFiles.leafNeedsRotation_eq_false (Bool.not_eq_true _ ▸ kept)
      exact ⟨consistent, fun _ => ⟨ca, root, consistent.paired ca leaf root here signed⟩⟩
  | renamingLeafCert leaf key regenerated =>
    obtain ⟨-, ca, paired, signed⟩ := fits
    refine ⟨⟨consistent.caIssued, ?_, consistent.wholeCert, consistent.wholeKey, ?_⟩, ca, paired⟩
    · rintro _ ⟨⟩
      rw [signed]
      exact consistent.caIssued ca paired.1
    · intro other _ held _ _
      cases paired.1.symm.trans held
      exact paired.2
  | renamingLeafKey key regenerated =>
    obtain ⟨ca, paired⟩ := fits
    exact ⟨⟨consistent.caIssued, consistent.leafIssued, consistent.wholeCert,
      consistent.wholeKey, consistent.paired⟩, fun _ => ⟨ca, paired⟩⟩
  | returned regenerated error => exact ⟨consistent, fits⟩

/-- Wherever an `Ensure` stops, the files are consistent. -/
theorem stopAfter_consistent (consistent : world.Consistent) (steps : Nat) :
    (stopAfter names clock steps world).1.Consistent ∧
      EnsurePlace.Fits (stopAfter names clock steps world).1
        (stopAfter names clock steps world).2 := by
  induction steps with
  | zero => exact ⟨consistent, trivial⟩
  | succ steps inductionHypothesis =>
    have next : stopAfter names clock (steps + 1) world =
        stepEnsure names clock (stopAfter names clock steps world) :=
      Function.iterate_succ_apply' ..
    rw [next]
    exact stepEnsure_consistent inductionHypothesis.1 inductionHypothesis.2

end Steps

theorem PKIWorld.consistent_fresh : PKIWorld.fresh.Consistent :=
  ⟨nofun, nofun, nofun, nofun, nofun⟩

theorem consistent_run {history : List EnsureCall} {world : PKIWorld}
    (run : Run stepPKI anything .fresh history world) : world.Consistent := by
  refine run.invariant PKIWorld.Consistent PKIWorld.consistent_fresh
    fun world call next consistent _ stepped => ?_
  cases stepped
  exact (stopAfter_consistent consistent call.steps).1

/-- A successful `Ensure` leaves a CA beside its key. -/
theorem PKIWorld.LeftBySuccess.paired {world : PKIWorld} (left : world.LeftBySuccess) :
    world.Consistent ∧ ∃ ca, world.files.CAPaired ca := by
  obtain ⟨history, earlier, names, clock, regenerated, run, ensured⟩ := left
  have stopped : (ensure names clock earlier).1.Consistent ∧
      EnsurePlace.Fits (ensure names clock earlier).1 (ensure names clock earlier).2 :=
    stopAfter_consistent (consistent_run run) 6
  rw [ensured] at stopped
  exact ⟨stopped.1, stopped.2 rfl⟩

/-! ### A whole Ensure -/

section Whole

variable {names : List (List Char)} {clock : EnsureClock} {world : PKIWorld}

theorem PKIWorld.createCA_eq (domains : ∀ name ∈ names, DomainName name)
    (regenerated : CARegen) :
    world.createCA names clock regenerated = ({ world with issued := world.issued + 1 },
      .renamingCACert (newCA names clock world.issued) world.issued regenerated) := by
  have parse : names.all constraintParses = true :=
    List.all_eq_true.mpr fun name member => (domains name member).constraintParses
  rw [PKIWorld.createCA, parse]
  rfl

/-- From the check of the leaf on, with the CA's pair on disk, an `Ensure` returns within three
steps and leaves everything sound. -/
theorem checkingLeaf_sound (clock : EnsureClock) (world : PKIWorld) (ca : Certificate)
    (domains : ∀ name ∈ names, DomainName name) (paired : world.files.CAPaired ca)
    (same : ca.names = names) (regenerated : CARegen) :
    ∃ after, (stepEnsure names clock)^[3] (world, .checkingLeaf ca ca.key regenerated) =
      (after, .returned regenerated none) ∧ after.files.Sound := by
  cases rotates : world.files.leafNeedsRotation names clock with
  | false =>
    obtain ⟨root, leaf, held, here, own, chains⟩ := PKIFiles.leafNeedsRotation_eq_false rotates
    cases held.symm.trans paired.1
    refine ⟨world, ?_, ca, leaf, paired.1, paired.2, here, own, chains⟩
    simp [Function.iterate_succ, stepEnsure, rotates]
  | true =>
    let leaf := newLeaf ca names clock world.issued
    let files := { world.files with leafCert := .holds leaf, leafKey := .holds world.issued }
    refine ⟨⟨files, world.issued + 1⟩, ?_, ca, leaf, paired.1, paired.2, rfl, rfl, rfl, ?_⟩
    · simp [Function.iterate_succ, stepEnsure, rotates, PKIWorld.createLeaf, files, leaf]
    · show permitsNames ca.names names = true
      rw [same]
      exact permitsNames_self domains

/-- An `Ensure` that begins with the creation of a CA. -/
def PKIWorld.Creates (world : PKIWorld) (names : List (List Char)) (clock : EnsureClock) : Prop :=
  ∃ regenerated, stepEnsure names clock (world, .loading) =
    world.createCA names clock regenerated

/-- The world with a new CA in place. -/
def PKIWorld.replaced (world : PKIWorld) (names : List (List Char)) (clock : EnsureClock) :
    PKIWorld where
  files := { world.files with
    caCert := .holds (newCA names clock world.issued)
    caKey := .holds world.issued }
  issued := world.issued + 1

/-- What an `Ensure` that creates a CA has done when it stops. -/
theorem PKIWorld.Creates.stops (domains : ∀ name ∈ names, DomainName name)
    (creates : world.Creates names clock) : ∃ regenerated,
    (stopAfter names clock 1 world).1.files = world.files ∧
    (stopAfter names clock 2 world).1.files =
      { world.files with caCert := .holds (newCA names clock world.issued) } ∧
    stopAfter names clock 3 world = (world.replaced names clock,
      .checkingLeaf (newCA names clock world.issued) world.issued regenerated) := by
  obtain ⟨regenerated, first⟩ := creates
  rw [PKIWorld.createCA_eq domains] at first
  refine ⟨regenerated, ?_, ?_, ?_⟩
  · rw [stopAfter, Function.iterate_one, first]
  · rw [stopAfter, Function.iterate_succ_apply, first]
    rfl
  · rw [stopAfter, Function.iterate_succ_apply, first]
    rfl

/-- An `Ensure` that creates a CA succeeds. -/
theorem recovers_of_creates (domains : ∀ name ∈ names, DomainName name)
    (creates : world.Creates names clock) : Recovers names clock world := by
  obtain ⟨regenerated, -, -, third⟩ := creates.stops domains
  obtain ⟨after, returned, sound⟩ := checkingLeaf_sound clock (world.replaced names clock)
    (newCA names clock world.issued) domains ⟨rfl, rfl⟩ rfl regenerated
  refine ⟨regenerated, after, ?_, sound⟩
  rw [← returned, ensure, stopAfter, Function.iterate_add_apply _ 3 3,
    ← stopAfter, third]
  rfl

/-- An `Ensure` whose CA stays succeeds exactly when the CA is beside its key. -/
theorem recovers_iff_of_keeps (consistent : world.Consistent) (nonempty : names ≠ [])
    (domains : ∀ name ∈ names, DomainName name) {ca : Certificate} {key : Nat}
    (held : world.files.caCert = .holds ca) (heldKey : world.files.caKey = .holds key)
    (keeps : ca.regenerates names clock = .none) :
    Recovers names clock world ↔ ca.key = key := by
  have loaded : world.files.loadCA = .loaded ca key := by
    rw [PKIFiles.loadCA, held, heldKey]
  have first : stepEnsure names clock (world, .loading) = (world, .checkingLeaf ca key .none) := by
    simp [stepEnsure, nonempty, loaded, keeps]
  have named : ca.names = names := by
    by_contra other
    rw [Certificate.regenerates, if_pos other] at keeps
    cases keeps
  constructor
  · rintro ⟨regenerated, after, returned, -⟩
    by_contra torn
    -- The leaf cannot be under this CA, and a new one cannot be signed.
    have rotates : world.files.leafNeedsRotation names clock = true := by
      by_contra kept
      obtain ⟨root, leaf, root', here, -, signed, -⟩ :=
        PKIFiles.leafNeedsRotation_eq_false (Bool.not_eq_true _ ▸ kept)
      cases root'.symm.trans held
      cases (consistent.paired ca leaf held here signed).symm.trans heldKey
      exact torn rfl
    have failed : ensure names clock world =
        ({ world with issued := world.issued + 1 }, .returned .none (some .keyMismatch)) := by
      rw [ensure, stopAfter, Function.iterate_succ_apply, first]
      simp [Function.iterate_succ, stepEnsure, rotates, PKIWorld.createLeaf, torn]
    cases failed.symm.trans returned
  · rintro rfl
    obtain ⟨after, returned, sound⟩ := checkingLeaf_sound clock world ca domains
      ⟨held, heldKey⟩ named .none
    refine ⟨.none, after, ?_, sound⟩
    rw [ensure, stopAfter, Function.iterate_succ_apply, first, Function.iterate_add_apply _ 2 3,
      returned]
    simp [Function.iterate_succ, stepEnsure]

/-- Every CA file is behind the `Ensure`. -/
def EnsurePlace.pastCA : EnsurePlace → Bool
  | .checkingLeaf _ _ _ | .renamingLeafCert _ _ _ | .renamingLeafKey _ _ | .returned _ _ => true
  | .loading | .renamingCACert _ _ _ | .renamingCAKey _ _ _ => false

/-- From there on an `Ensure` leaves the files of the CA. -/
theorem iterate_pastCA (steps : Nat) (world : PKIWorld) {place : EnsurePlace}
    (past : place.pastCA = true) :
    EnsurePlace.pastCA ((stepEnsure names clock)^[steps] (world, place)).2 = true ∧
      ((stepEnsure names clock)^[steps] (world, place)).1.files.caCert = world.files.caCert ∧
      ((stepEnsure names clock)^[steps] (world, place)).1.files.caKey = world.files.caKey := by
  induction steps generalizing world place with
  | zero => exact ⟨past, rfl, rfl⟩
  | succ steps inductionHypothesis =>
    rw [Function.iterate_succ_apply]
    cases place with
    | loading => cases past
    | renamingCACert => cases past
    | renamingCAKey => cases past
    | checkingLeaf cert key regenerated =>
      simp only [stepEnsure]
      split
      · simp only [PKIWorld.createLeaf]
        split
        · exact inductionHypothesis { world with issued := world.issued + 1 } rfl
        · exact inductionHypothesis { world with issued := world.issued + 1 } rfl
      · exact inductionHypothesis world rfl
    | renamingLeafCert leaf key regenerated =>
      exact inductionHypothesis { world with files.leafCert := .holds leaf } rfl
    | renamingLeafKey key regenerated =>
      exact inductionHypothesis { world with files.leafKey := .holds key } rfl
    | returned regenerated error => exact inductionHypothesis world rfl

/-- An `Ensure` that finds no CA, or one that is due, creates one. -/
theorem creates_of_absent (nonempty : names ≠ []) (absent : world.files.loadCA = .absent) :
    world.Creates names clock :=
  ⟨.none, by simp [stepEnsure, nonempty, absent]⟩

theorem creates_of_due (nonempty : names ≠ []) {ca : Certificate} {key : Nat}
    (held : world.files.caCert = .holds ca) (heldKey : world.files.caKey = .holds key)
    (due : ca.regenerates names clock ≠ .none) : world.Creates names clock := by
  have loaded : world.files.loadCA = .loaded ca key := by
    rw [PKIFiles.loadCA, held, heldKey]
  exact ⟨ca.regenerates names clock, by simp [stepEnsure, nonempty, loaded, due]⟩

/-- An `Ensure` over a consistent directory succeeds unless it keeps a CA that is not beside its
key. -/
theorem recovers_iff (consistent : world.Consistent) (nonempty : names ≠ [])
    (domains : ∀ name ∈ names, DomainName name) :
    Recovers names clock world ↔ ∀ ca key, world.files.caCert = .holds ca →
      world.files.caKey = .holds key → ca.regenerates names clock = .none → ca.key = key := by
  cases held : world.files.caCert with
  | garbled => exact absurd held consistent.wholeCert
  | missing =>
    have absent : world.files.loadCA = .absent := by simp [PKIFiles.loadCA, held]
    exact ⟨fun _ _ _ => nofun, fun _ =>
      recovers_of_creates domains (creates_of_absent nonempty absent)⟩
  | holds ca =>
    cases heldKey : world.files.caKey with
    | garbled => exact absurd heldKey consistent.wholeKey
    | missing =>
      have absent : world.files.loadCA = .absent := by simp [PKIFiles.loadCA, held, heldKey]
      exact ⟨fun _ _ _ _ => nofun, fun _ =>
        recovers_of_creates domains (creates_of_absent nonempty absent)⟩
    | holds key =>
      by_cases keeps : ca.regenerates names clock = .none
      · rw [recovers_iff_of_keeps consistent nonempty domains held heldKey keeps]
        constructor
        · rintro rfl _ _ ⟨⟩ ⟨⟩ _
          rfl
        · intro matching
          exact matching ca key rfl rfl keeps
      · refine ⟨?_, fun _ =>
          recovers_of_creates domains (creates_of_due nonempty held heldKey keeps)⟩
        rintro _ _ _ ⟨⟩ ⟨⟩ kept
        exact absurd kept keeps

/-! ### Where an Ensure stops -/

/-- The files of the CA are the same. -/
def PKIFiles.SameCA (files after : PKIFiles) : Prop :=
  after.caCert = files.caCert ∧ after.caKey = files.caKey

/-- An `Ensure` that creates a CA and does not stop between its renames leaves the old pair or
the new one. -/
theorem PKIWorld.Creates.sameCA (domains : ∀ name ∈ names, DomainName name)
    (creates : world.Creates names clock) {steps : Nat} (apart : steps ≠ 2) :
    world.files.SameCA (stopAfter names clock steps world).1.files ∨
      (stopAfter names clock steps world).1.files.CAPaired (newCA names clock world.issued) := by
  obtain ⟨regenerated, one, -, three⟩ := creates.stops domains
  match steps, apart with
  | 0, _ => exact .inl ⟨rfl, rfl⟩
  | 1, _ =>
    left
    rw [one]
    exact ⟨rfl, rfl⟩
  | steps + 3, _ =>
    right
    rw [stopAfter, Function.iterate_add_apply, ← stopAfter, three]
    exact (iterate_pastCA steps (world.replaced names clock) rfl).2

/-- An `Ensure` that keeps its CA leaves its files wherever it stops. -/
theorem sameCA_of_keeps (nonempty : names ≠ []) {ca : Certificate}
    (paired : world.files.CAPaired ca) (keeps : ca.regenerates names clock = .none)
    (steps : Nat) : world.files.SameCA (stopAfter names clock steps world).1.files := by
  have loaded : world.files.loadCA = .loaded ca ca.key := by
    rw [PKIFiles.loadCA, paired.1, paired.2]
  have first : stepEnsure names clock (world, .loading) =
      (world, .checkingLeaf ca ca.key .none) := by
    simp [stepEnsure, nonempty, loaded, keeps]
  cases steps with
  | zero => exact ⟨rfl, rfl⟩
  | succ steps =>
    rw [stopAfter, Function.iterate_succ_apply, first]
    exact (iterate_pastCA steps world rfl).2

/-- A CA that was just created is kept unless it is about to expire. -/
theorem newCA_regenerates (next : EnsureClock) (key : Nat) :
    (newCA names clock key).regenerates names next = .none ↔
      next.expiry < certificateTime (clock.caUntil + caValidity) - caRenewUnder := by
  have named : ¬ (newCA names clock key).names ≠ names := not_not.mpr rfl
  rw [Certificate.regenerates, if_neg named]
  by_cases young : next.expiry < certificateTime (clock.caUntil + caValidity) - caRenewUnder
  · exact iff_of_true (if_neg (not_not.mpr young)) young
  · refine iff_of_false (fun kept => ?_) young
    cases (if_pos young).symm.trans kept

end Whole

/-! ### Recovery -/

/-- Wherever an `Ensure` stops, over an empty directory or one that a successful `Ensure` left,
the next one for the same names succeeds and leaves a sound directory, unless the first stops
between the renames of a CA that replaces another and the next would keep the new CA. -/
theorem ensure_recovers_iff {names : List (List Char)} (nonempty : names ≠ [])
    (domains : ∀ name ∈ names, DomainName name) {world : PKIWorld}
    (start : world = .fresh ∨ world.LeftBySuccess) (clock next : EnsureClock) (steps : Nat) :
    Recovers names next (stopAfter names clock steps world).1 ↔
      ¬ TornRegeneration world names clock next steps := by
  have consistent : world.Consistent := by
    rcases start with rfl | left
    · exact PKIWorld.consistent_fresh
    · exact left.paired.1
  have stopped : (stopAfter names clock steps world).1.Consistent :=
    (stopAfter_consistent consistent steps).1
  rw [recovers_iff stopped nonempty domains]
  rcases start with rfl | left
  · -- Over an empty directory there is no older key, so a lone certificate is not loaded.
    have creates : PKIWorld.fresh.Creates names clock := creates_of_absent nonempty rfl
    refine iff_of_true ?_ fun torn => nomatch torn.1.choose_spec.1
    intro ca key held heldKey _
    by_cases between : steps = 2
    · obtain ⟨_, -, two, -⟩ := creates.stops domains
      rw [between, two] at heldKey
      cases heldKey
    · rcases creates.sameCA domains between with ⟨same, -⟩ | ⟨newCert, newKey⟩
      · cases same.symm.trans held
      · cases newCert.symm.trans held
        cases newKey.symm.trans heldKey
        rfl
  · obtain ⟨-, ca, paired⟩ := left.paired
    by_cases keeps : ca.regenerates names clock = .none
    · obtain ⟨cert, keyFile⟩ := sameCA_of_keeps nonempty paired keeps steps
      refine iff_of_true ?_ ?_
      · intro ca' key held heldKey _
        cases (cert.trans paired.1).symm.trans held
        cases (keyFile.trans paired.2).symm.trans heldKey
        rfl
      · rintro ⟨⟨other, held, due⟩, -⟩
        cases paired.1.symm.trans held
        exact due keeps
    · have creates := creates_of_due nonempty paired.1 paired.2 keeps
      by_cases between : steps = 2
      · obtain ⟨_, -, two, -⟩ := creates.stops domains
        have older := consistent.caIssued ca paired.1
        rw [between, two]
        constructor
        · rintro matching ⟨-, -, young⟩
          have same := matching _ ca.key rfl paired.2 ((newCA_regenerates next _).mpr young)
          exact absurd same (Nat.ne_of_gt older)
        · rintro whole _ key ⟨⟩ _ kept
          exact absurd ⟨⟨ca, paired.1, keeps⟩, rfl, (newCA_regenerates next _).mp kept⟩ whole
      · refine iff_of_true ?_ fun torn => between torn.2.1
        intro ca' key held heldKey _
        rcases creates.sameCA domains between with ⟨cert, keyFile⟩ | ⟨newCert, newKey⟩
        · cases (cert.trans paired.1).symm.trans held
          cases (keyFile.trans paired.2).symm.trans heldKey
          rfl
        · cases newCert.symm.trans held
          cases newKey.symm.trans heldKey
          rfl

/-- A clock that stands still. -/
def clockAt (now : Int) : EnsureClock := ⟨now, now, now, now, now, now, now⟩

/-- What the first `Ensure` of a daemon leaves. -/
def firstDirectory : PKIWorld := (ensure ["a.example".toList] (clockAt 0) .fresh).1

theorem firstDirectory_left : firstDirectory.LeftBySuccess :=
  ⟨[], .fresh, ["a.example".toList], clockAt 0, .none, .nil, rfl⟩

/-- A stop between the renames of the leaf that follows a new CA. -/
theorem torn_leaf_recovers :
    Recovers ["b.example".toList] (clockAt hour)
      (stopAfter ["b.example".toList] (clockAt minute) 5 firstDirectory).1 :=
  (ensure_recovers_iff (by decide) (by decide) (.inr firstDirectory_left) (clockAt minute)
    (clockAt hour) 5).mpr fun torn => absurd torn.2.1 (by decide)

/-- A stop between the renames of the new CA that a change of the names asks for: the next
`Ensure` loads the new certificate beside the old key, and cannot sign a leaf. -/
theorem torn_ca_stuck :
    ¬ ∀ (names : List (List Char)), names ≠ [] → (∀ name ∈ names, DomainName name) →
      ∀ (world : PKIWorld), world = .fresh ∨ world.LeftBySuccess →
        ∀ (clock next : EnsureClock) (steps : Nat),
          Recovers names next (stopAfter names clock steps world).1 := by
  intro always
  obtain ⟨regenerated, after, returned, -⟩ := always ["b.example".toList] (by decide) (by decide)
    firstDirectory (.inr firstDirectory_left) (clockAt minute) (clockAt hour) 2
  have failed : (ensure ["b.example".toList] (clockAt hour)
      (stopAfter ["b.example".toList] (clockAt minute) 2 firstDirectory).1).2 =
        .returned .none (some .keyMismatch) := rfl
  rw [returned] at failed
  cases failed

end Multimux
