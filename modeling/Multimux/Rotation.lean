/-
This file is about the fixpoint of `Ensure`. The leaf that a successful call
leaves ends no later than its CA, and until one of the two comes into its
renewal window further calls for the same names write nothing: a leaf that was
cut to the end of its CA is never due before the CA is. The names of a start do
not depend on the order or the spelling of the extra SANs, so an edit of these
alone asks for no new CA.
-/

import Multimux.Ensure

namespace Multimux

/-! ### Readings of the clock -/

/-- Every reading of the clock is at most this late. -/
structure EnsureClock.Until (clock : EnsureClock) (latest : Int) : Prop where
  expiry : clock.expiry ≤ latest
  caFrom : clock.caFrom ≤ latest
  caUntil : clock.caUntil ≤ latest
  rotation : clock.rotation ≤ latest
  verification : clock.verification ≤ latest
  leafUntil : clock.leafUntil ≤ latest
  leafFrom : clock.leafFrom ≤ latest

/-- A directory that earlier calls made, each with readings that are at most this late; any of
them may have stopped anywhere. -/
def PKIWorld.MadeUntil (world : PKIWorld) (latest : Int) : Prop :=
  ∃ history, Run stepPKI (fun _ call => call.clock.Until latest) .fresh history world

theorem certificateTime_le (instant : Int) : certificateTime instant ≤ instant :=
  Int.ediv_mul_le instant (by decide)

/-- What begins an hour before a reading has begun at the latest one. -/
theorem certificateTime_hour_le {reading latest : Int} (read : reading ≤ latest) :
    certificateTime (reading - hour) ≤ latest := by
  have hours : 0 ≤ hour := by decide
  have rounded := certificateTime_le (reading - hour)
  omega

theorem newLeaf_notAfter_le (ca : Certificate) (names : List (List Char)) (clock : EnsureClock)
    (key : Nat) : (newLeaf ca names clock key).notAfter ≤ ca.notAfter :=
  (certificateTime_le _).trans (min_le_right _ _)

/-! ### What the checks ask -/

theorem Certificate.regenerates_eq_none {cert : Certificate} {names : List (List Char)}
    {clock : EnsureClock} :
    cert.regenerates names clock = .none ↔
      cert.names = names ∧ clock.expiry < cert.notAfter - caRenewUnder := by
  unfold Certificate.regenerates
  split
  · rename_i other
    exact iff_of_false (by simp) fun both => other both.1
  · rename_i same
    split
    · rename_i due
      exact iff_of_false (by simp) fun both => due both.2
    · rename_i young
      exact iff_of_true rfl ⟨not_not.mp same, not_not.mp young⟩

/-- A leaf is kept if it is far from its end, has the names, and verifies beside its key. -/
theorem PKIFiles.leafNeedsRotation_iff {files : PKIFiles} {ca leaf : Certificate}
    (root : files.caCert = .holds ca) (here : files.leafCert = .holds leaf)
    {names : List (List Char)} {clock : EnsureClock} :
    files.leafNeedsRotation names clock = false ↔
      leafRotateUnder ≤ leaf.notAfter - clock.rotation ∧ leaf.names = names ∧
        files.leafKey = .holds leaf.key ∧ leaf.verify ca clock.verification = true := by
  simp only [PKIFiles.leafNeedsRotation, root, here, PKIFiles.leafPaired]
  split
  · rename_i due
    exact iff_of_false (by simp) fun kept => absurd kept.1 (not_le.mpr due)
  · rename_i young
    split
    · rename_i other
      exact iff_of_false (by simp) fun kept => other kept.2.1
    · rename_i same
      split
      · rename_i apart
        exact iff_of_false (by simp) fun kept => apart (decide_eq_true kept.2.2.1)
      · rename_i paired
        have matching := of_decide_eq_true (not_not.mp paired)
        rw [decide_eq_false_iff_not, not_not]
        exact ⟨fun verified => ⟨not_lt.mp young, not_not.mp same, matching, verified⟩,
          fun kept => kept.2.2.2⟩

/-! ### Lifetimes on disk -/

/-- The certificates on disk have begun, and a leaf ends no later than the CA that signed it. -/
structure PKIWorld.Dated (world : PKIWorld) (latest : Int) : Prop where
  caFrom : ∀ ca, world.files.caCert = .holds ca → ca.notBefore ≤ latest
  leafFrom : ∀ leaf, world.files.leafCert = .holds leaf → leaf.notBefore ≤ latest
  outlived : ∀ ca leaf, world.files.caCert = .holds ca → world.files.leafCert = .holds leaf →
    leaf.signer = ca.key → leaf.notAfter ≤ ca.notAfter

/-- A CA and a leaf for the names, each beside its key, the leaf signed with the CA's. -/
structure PKIFiles.Serves (files : PKIFiles) (names : List (List Char)) (ca leaf : Certificate) :
    Prop where
  caPaired : files.CAPaired ca
  caNames : ca.names = names
  leafCert : files.leafCert = .holds leaf
  leafKey : files.leafKey = .holds leaf.key
  leafNames : leaf.names = names
  signed : leaf.signer = ca.key

/-- What an `Ensure` for the names knows of the lifetimes where it stands. -/
def EnsurePlace.Knows (world : PKIWorld) (names : List (List Char)) (latest : Int) :
    EnsurePlace → Prop
  | .loading => True
  | .renamingCACert cert _ _ => cert.notBefore ≤ latest ∧ cert.names = names
  | .renamingCAKey cert _ _ | .checkingLeaf cert _ _ => cert.names = names
  | .renamingLeafCert leaf _ _ => leaf.notBefore ≤ latest ∧ leaf.names = names ∧
      ∀ ca, world.files.caCert = .holds ca → ca.names = names ∧ leaf.notAfter ≤ ca.notAfter
  | .renamingLeafKey key _ => ∃ ca leaf, world.files.CAPaired ca ∧ ca.names = names ∧
      world.files.leafCert = .holds leaf ∧ leaf.key = key ∧ leaf.names = names ∧
      leaf.signer = ca.key
  | .returned _ error => error = none → ∃ ca leaf, world.files.Serves names ca leaf

section Steps

variable {names : List (List Char)} {clock : EnsureClock} {world : PKIWorld} {latest : Int}

/-- One step keeps the lifetimes in order. -/
theorem stepEnsure_dated {place : EnsurePlace} (consistent : world.Consistent)
    (fits : place.Fits world) (dated : world.Dated latest) (knows : place.Knows world names latest)
    (read : clock.Until latest) :
    (stepEnsure names clock (world, place)).1.Dated latest ∧
      EnsurePlace.Knows (stepEnsure names clock (world, place)).1 names latest
        (stepEnsure names clock (world, place)).2 := by
  have creates : ∀ regenerated, (world.createCA names clock regenerated).1.Dated latest ∧
      EnsurePlace.Knows (world.createCA names clock regenerated).1 names latest
        (world.createCA names clock regenerated).2 := by
    intro regenerated
    refine ⟨⟨dated.caFrom, dated.leafFrom, dated.outlived⟩, ?_⟩
    simp only [PKIWorld.createCA]
    split
    · exact ⟨certificateTime_hour_le read.caFrom, rfl⟩
    · rintro ⟨⟩
  cases place with
  | loading =>
    simp only [stepEnsure]
    split
    · exact ⟨dated, by rintro ⟨⟩⟩
    · split
      · exact creates .none
      · exact ⟨dated, by rintro ⟨⟩⟩
      · split
        · rename_i kept
          exact ⟨dated, (Certificate.regenerates_eq_none.mp kept).1⟩
        · exact creates _
  | renamingCACert cert key regenerated =>
    obtain ⟨rfl, -, other⟩ := fits
    refine ⟨⟨?_, dated.leafFrom, ?_⟩, knows.2⟩
    · rintro ca ⟨⟩
      exact knows.1
    · rintro ca leaf ⟨⟩ held signed
      exact absurd signed (other leaf held)
  | renamingCAKey cert key regenerated =>
    exact ⟨⟨dated.caFrom, dated.leafFrom, dated.outlived⟩, knows⟩
  | checkingLeaf cert key regenerated =>
    obtain ⟨heldCert, heldKey⟩ := fits
    simp only [stepEnsure]
    split
    · refine ⟨⟨dated.caFrom, dated.leafFrom, dated.outlived⟩, ?_⟩
      simp only [PKIWorld.createLeaf]
      split
      · refine ⟨certificateTime_hour_le read.leafFrom, rfl, fun ca held => ?_⟩
        cases heldCert.symm.trans held
        exact ⟨knows, newLeaf_notAfter_le ..⟩
      · rintro ⟨⟩
    · rename_i rotates
      have kept := Bool.not_eq_true _ ▸ rotates
      obtain ⟨ca, leaf, root, here, own, signed, -⟩ := PKIFiles.leafNeedsRotation_eq_false kept
      cases heldCert.symm.trans root
      have named := ((PKIFiles.leafNeedsRotation_iff root here).mp kept).2.1
      exact ⟨dated, fun _ => ⟨cert, leaf, ⟨root, consistent.paired cert leaf root here signed⟩,
        knows, here, own, named, signed⟩⟩
  | renamingLeafCert leaf key regenerated =>
    obtain ⟨own, ca, paired, signed⟩ := fits
    obtain ⟨begun, named, cut⟩ := knows
    obtain ⟨caNames, ends⟩ := cut ca paired.1
    refine ⟨⟨dated.caFrom, ?_, ?_⟩, ca, leaf, paired, caNames, rfl, own, named, signed⟩
    · rintro _ ⟨⟩
      exact begun
    · rintro root _ held ⟨⟩ _
      cases paired.1.symm.trans held
      exact ends
  | renamingLeafKey key regenerated =>
    obtain ⟨ca, leaf, paired, caNames, here, rfl, named, signed⟩ := knows
    exact ⟨⟨dated.caFrom, dated.leafFrom, dated.outlived⟩,
      fun _ => ⟨ca, leaf, paired, caNames, here, rfl, named, signed⟩⟩
  | returned regenerated error => exact ⟨dated, knows⟩

/-- Wherever an `Ensure` stops, the lifetimes are in order. -/
theorem stopAfter_dated (consistent : world.Consistent) (dated : world.Dated latest)
    (read : clock.Until latest) (steps : Nat) :
    (stopAfter names clock steps world).1.Dated latest ∧
      EnsurePlace.Knows (stopAfter names clock steps world).1 names latest
        (stopAfter names clock steps world).2 := by
  induction steps with
  | zero => exact ⟨dated, trivial⟩
  | succ steps inductionHypothesis =>
    have next : stopAfter names clock (steps + 1) world =
        stepEnsure names clock (stopAfter names clock steps world) :=
      Function.iterate_succ_apply' ..
    obtain ⟨stopped, fits⟩ := stopAfter_consistent consistent steps
    rw [next]
    exact stepEnsure_dated stopped fits inductionHypothesis.1 inductionHypothesis.2 read

theorem PKIWorld.MadeUntil.dated (made : world.MadeUntil latest) :
    world.Consistent ∧ world.Dated latest := by
  obtain ⟨history, run⟩ := made
  refine run.invariant (fun world => world.Consistent ∧ world.Dated latest)
    ⟨PKIWorld.consistent_fresh, nofun, nofun, nofun⟩ fun middle call next holds read stepped => ?_
  cases stepped
  exact ⟨(stopAfter_consistent holds.1 call.steps).1,
    (stopAfter_dated holds.1 holds.2 read call.steps).1⟩

/-- What a successful `Ensure` leaves. -/
theorem PKIWorld.MadeUntil.serves {after : PKIWorld} {regenerated : CARegen}
    (made : world.MadeUntil latest) (read : clock.Until latest)
    (ensured : ensure names clock world = (after, .returned regenerated none)) :
    after.Dated latest ∧ ∃ ca leaf, after.files.Serves names ca leaf := by
  obtain ⟨consistent, dated⟩ := made.dated
  have stopped : (ensure names clock world).1.Dated latest ∧
      EnsurePlace.Knows (ensure names clock world).1 names latest (ensure names clock world).2 :=
    stopAfter_dated consistent dated read 6
  rw [ensured] at stopped
  exact ⟨stopped.1, stopped.2 rfl⟩

/-! ### The fixpoint -/

/-- An `Ensure` that writes no file at any of its steps, and reports no new CA. -/
structure StaysAt (names : List (List Char)) (clock : EnsureClock) (world : PKIWorld) : Prop where
  unwritten : ∀ steps, (stopAfter names clock steps world).1 = world
  reports : (ensure names clock world).2 = .returned .none none

/-- An `Ensure` whose two checks find nothing to do stays. -/
theorem staysAt_of_kept {ca : Certificate} {key : Nat} (nonempty : names ≠ [])
    (loaded : world.files.loadCA = .loaded ca key)
    (keeps : ca.regenerates names clock = .none)
    (kept : world.files.leafNeedsRotation names clock = false) : StaysAt names clock world := by
  have first : stepEnsure names clock (world, .loading) = (world, .checkingLeaf ca key .none) := by
    simp [stepEnsure, nonempty, loaded, keeps]
  have second : stepEnsure names clock (world, .checkingLeaf ca key .none) =
      (world, .returned .none none) := by
    simp [stepEnsure, kept]
  have later : ∀ steps, stopAfter names clock (steps + 2) world =
      (world, .returned .none none) := by
    intro steps
    rw [stopAfter, Function.iterate_succ_apply, first, Function.iterate_succ_apply, second]
    exact Function.iterate_fixed rfl steps
  refine ⟨fun steps => ?_, congrArg Prod.snd (later 4)⟩
  rcases steps with _ | _ | steps
  · rfl
  · rw [stopAfter, Function.iterate_one, first]
  · rw [later]

/-- The next `Ensure` stays while it keeps the CA and the leaf is not in its rotation window. -/
theorem PKIFiles.Serves.staysAt {ca leaf : Certificate} (serves : world.files.Serves names ca leaf)
    (dated : world.Dated latest) (nonempty : names ≠ [])
    (domains : ∀ name ∈ names, DomainName name) (keeps : ca.regenerates names clock = .none)
    (young : leafRotateUnder ≤ leaf.notAfter - clock.rotation)
    (later : latest ≤ clock.verification) (running : clock.verification ≤ leaf.notAfter) :
    StaysAt names clock world := by
  have loaded : world.files.loadCA = .loaded ca ca.key := by
    rw [PKIFiles.loadCA, serves.caPaired.1, serves.caPaired.2]
  refine staysAt_of_kept nonempty loaded keeps ?_
  refine (PKIFiles.leafNeedsRotation_iff serves.caPaired.1 serves.leafCert).mpr
    ⟨young, serves.leafNames, serves.leafKey, ?_⟩
  have permitted : permitsNames ca.names leaf.names = true := by
    rw [serves.caNames, serves.leafNames]
    exact permitsNames_self domains
  have ends := dated.outlived ca leaf serves.caPaired.1 serves.leafCert serves.signed
  have caBegun := dated.caFrom ca serves.caPaired.1
  have leafBegun := dated.leafFrom leaf serves.leafCert
  refine decide_eq_true ⟨⟨serves.signed, permitted⟩, ?_, ?_⟩
  · exact decide_eq_true ⟨leafBegun.trans later, running⟩
  · exact decide_eq_true ⟨caBegun.trans later, running.trans ends⟩

/-- The reason that an `Ensure` is going to report, once it has found one. -/
def EnsurePlace.reason : EnsurePlace → Option CARegen
  | .loading => none
  | .renamingCACert _ _ regenerated | .renamingCAKey _ _ regenerated
  | .checkingLeaf _ _ regenerated | .renamingLeafCert _ _ regenerated
  | .renamingLeafKey _ regenerated | .returned regenerated _ => some regenerated

/-- Once found, the reason stays. -/
theorem iterate_reason (steps : Nat) {state : PKIWorld × EnsurePlace} {regenerated : CARegen}
    (found : state.2.reason = some regenerated) :
    EnsurePlace.reason ((stepEnsure names clock)^[steps] state).2 = some regenerated := by
  induction steps generalizing state with
  | zero => exact found
  | succ steps inductionHypothesis =>
    obtain ⟨world, place⟩ := state
    refine inductionHypothesis ?_
    cases place with
    | loading => cases found
    | renamingCACert cert key because => exact found
    | renamingCAKey cert key because => exact found
    | checkingLeaf cert key because =>
      simp only [stepEnsure, PKIWorld.createLeaf]
      split
      · split
        · exact found
        · exact found
      · exact found
    | renamingLeafCert leaf key because => exact found
    | renamingLeafKey key because => exact found
    | returned because error => exact found

/-- An `Ensure` whose CA is for its names never reports them. -/
theorem PKIFiles.Serves.ensure_ne_hostnames {ca leaf : Certificate}
    (serves : world.files.Serves names ca leaf) (error : Option EnsureError) :
    (ensure names clock world).2 ≠ .returned .hostnames error := by
  have loaded : world.files.loadCA = .loaded ca ca.key := by
    rw [PKIFiles.loadCA, serves.caPaired.1, serves.caPaired.2]
  have reason : ∃ regenerated, regenerated ≠ .hostnames ∧
      (stepEnsure names clock (world, .loading)).2.reason = some regenerated := by
    simp only [stepEnsure, loaded]
    split
    · exact ⟨.none, by simp, rfl⟩
    · split
      · exact ⟨.none, by simp, rfl⟩
      · refine ⟨ca.regenerates names clock, ?_, ?_⟩
        · rw [Certificate.regenerates, if_neg (not_not.mpr serves.caNames)]
          split <;> simp
        · simp only [PKIWorld.createCA]
          split <;> rfl
  obtain ⟨regenerated, other, found⟩ := reason
  intro blames
  have stays : EnsurePlace.reason (ensure names clock world).2 = some regenerated :=
    iterate_reason 5 found
  rw [blames] at stays
  exact other (Option.some.inj stays).symm

end Steps

/-! ### The names of a start -/

section Names

variable (tables : TextTables)

/-- The entries of a list of SANs as they are compared: without case, white space around them
and one trailing dot; blank ones do not count. -/
def foldedSANs (stored : List Char) : List (List Char) :=
  ((stored.splitOn ',').map (canonicalHost tables)).filter (· ≠ [])

/-- The hostname that a start works with. -/
def foldedHost (calls : HostnamesCalls) (store : IdentityStore) : Except String (List Char) :=
  (seedHostname calls store).map (canonicalHost tables)

variable {tables}

theorem ValidName.ne_nil {name : List Char} (valid : ValidName tables name) : name ≠ [] := by
  rintro rfl
  cases valid

/-- The extra names depend on the folded entries only, in any order. -/
theorem extraNames_eq {stored edited : List Char}
    (same : (foldedSANs tables edited).Perm (foldedSANs tables stored)) :
    extraNames tables edited = extraNames tables stored := by
  have valid : ∀ raw, ((raw.splitOn ',').map (canonicalHost tables)).filter
      (fun name => decide (ValidName tables name)) =
        (foldedSANs tables raw).filter fun name => decide (ValidName tables name) := by
    intro raw
    rw [foldedSANs, List.filter_filter]
    refine List.filter_congr fun name _ => ?_
    by_cases right : ValidName tables name
    · simp [right, right.ne_nil]
    · simp [right]
  rw [extraNames, extraNames, valid, valid]
  exact mergeSort_sortsBefore_eq (same.filter _)

/-- A start that reads the extra SANs, taken apart: its names are those of the folded hostname,
which is stored after it, and the SANs stay. -/
theorem hostnames_reads {calls : HostnamesCalls} {store after : IdentityStore}
    {names : List (List Char)} (read : calls.getSANs = .ok)
    (computed : hostnames tables calls store = (.ok names, after)) :
    ∃ host, foldedHost tables calls store = .ok host ∧ ValidName tables host ∧
      names = answeredNames tables host (store.settings.get "extra_sans") ∧
      after.hostname = host ∧
      after.settings.get "extra_sans" = store.settings.get "extra_sans" := by
  have reads : calls.getSANs.orEmpty (store.settings.get "extra_sans") =
      store.settings.get "extra_sans" := by
    rw [read]
    rfl
  simp only [hostnames, reads] at computed
  split at computed
  · cases computed
  · split at computed
    · cases computed
    · rename_i seed seeded
      have folded : foldedHost tables calls store = .ok (canonicalHost tables seed) := by
        rw [foldedHost, seeded]
        rfl
      split at computed
      · cases computed
      · rename_i valid
        split at computed
        · rename_i stored
          cases computed
          refine ⟨_, folded, valid, rfl, ?_, rfl⟩
          unfold Outcome.orEmpty at stored
          split at stored
          · exact stored
          · exact absurd stored.symm (ValidName.ne_nil valid)
        · split at computed
          · cases computed
          · cases computed
            refine ⟨_, folded, valid, rfl, ?_, ?_⟩
            · refine IdentityStore.hostname_write ?_ (List.mem_singleton_self _)
              exact List.nodup_singleton "hostname"
            · have other : "extra_sans" ∉ [("hostname", canonicalHost tables seed)].map
                  Prod.fst := by simp
              exact congrArg (Option.getD · []) (Settings.setAll_of_notMem other)

/-- Two starts with the same hostname and the same extra SANs, up to order and spelling, have
equal names. -/
theorem hostnames_eq {calls again : HostnamesCalls} {store edited after afterAgain : IdentityStore}
    {names namesAgain : List (List Char)} (read : calls.getSANs = .ok)
    (readAgain : again.getSANs = .ok)
    (host : foldedHost tables again edited = foldedHost tables calls store)
    (same : (foldedSANs tables (edited.settings.get "extra_sans")).Perm
      (foldedSANs tables (store.settings.get "extra_sans")))
    (computed : hostnames tables calls store = (.ok names, after))
    (computedAgain : hostnames tables again edited = (.ok namesAgain, afterAgain)) :
    namesAgain = names := by
  obtain ⟨own, folded, -, rfl, -⟩ := hostnames_reads read computed
  obtain ⟨other, foldedAgain, -, rfl, -⟩ := hostnames_reads readAgain computedAgain
  cases folded.symm.trans (host.symm.trans foldedAgain)
  rw [answeredNames, answeredNames, extraNames_eq same]

/-- A start with the hostname that an earlier one stored. -/
theorem foldedHost_restart {calls again : HostnamesCalls} {store after edited : IdentityStore}
    {names : List (List Char)} (read : calls.getSANs = .ok)
    (computed : hostnames tables calls store = (.ok names, after))
    (host : edited.hostname = after.hostname) :
    foldedHost tables again edited = foldedHost tables calls store := by
  obtain ⟨own, folded, valid, -, stored, -⟩ := hostnames_reads read computed
  rw [stored] at host
  have nonempty : ¬ edited.hostname = [] := fun none => valid.ne_nil (host.symm.trans none)
  rw [folded, foldedHost, seedHostname, if_neg nonempty, host]
  exact congrArg Except.ok valid.canonicalHost_eq

end Names

/-! ### Rotation is a fixpoint -/

/-- The leaf that a successful `Ensure` leaves ends no later than its CA; later calls for the same
names stay until one of the two comes into its window, and where the leaf was cut to the end of
the CA, for as long as the CA is kept. Starts with the same hostname and the same extra SANs, up
to order and spelling, have equal names, and a restart after an edit of that kind never asks for
a new CA because of the names. -/
theorem rotation_fixpoint (tables : TextTables) :
    (∀ (names : List (List Char)), names ≠ [] → (∀ name ∈ names, DomainName name) →
      ∀ now earlier world clock regenerated, earlier.MadeUntil now → clock.Until now →
        ensure names clock earlier = (world, .returned regenerated none) →
        ∃ ca leaf, world.files.caCert = .holds ca ∧ world.files.leafCert = .holds leaf ∧
          leaf.notAfter ≤ ca.notAfter ∧
          (∀ later, now ≤ later → later < ca.notAfter - caRenewUnder →
            later < leaf.notAfter - leafRotateUnder → StaysAt names (clockAt later) world) ∧
          (leaf.notAfter = ca.notAfter → ∀ later, now ≤ later →
            ca.regenerates names (clockAt later) = .none → StaysAt names (clockAt later) world)) ∧
    (∀ calls again store edited after afterAgain names namesAgain,
      calls.getSANs = .ok → again.getSANs = .ok →
      foldedHost tables again edited = foldedHost tables calls store →
      (foldedSANs tables (edited.settings.get "extra_sans")).Perm
        (foldedSANs tables (store.settings.get "extra_sans")) →
      hostnames tables calls store = (.ok names, after) →
      hostnames tables again edited = (.ok namesAgain, afterAgain) → namesAgain = names) ∧
    ∀ calls again store edited after afterAgain names namesAgain,
      calls.getSANs = .ok → again.getSANs = .ok → edited.hostname = after.hostname →
      (foldedSANs tables (edited.settings.get "extra_sans")).Perm
        (foldedSANs tables (after.settings.get "extra_sans")) →
      hostnames tables calls store = (.ok names, after) →
      hostnames tables again edited = (.ok namesAgain, afterAgain) →
      ∀ now earlier world clock regenerated, earlier.MadeUntil now → clock.Until now →
        ensure names clock earlier = (world, .returned regenerated none) →
        ∀ next error, (ensure namesAgain next world).2 ≠ .returned .hostnames error := by
  refine ⟨?_, ?_, ?_⟩
  · intro names nonempty domains now earlier world clock regenerated made read ensured
    obtain ⟨dated, ca, leaf, serves⟩ := made.serves read ensured
    have ends := dated.outlived ca leaf serves.caPaired.1 serves.leafCert serves.signed
    have rotates : 0 ≤ leafRotateUnder := by decide
    have stays : ∀ later, now ≤ later → later < ca.notAfter - caRenewUnder →
        later < leaf.notAfter - leafRotateUnder → StaysAt names (clockAt later) world := by
      intro later since caYoung leafYoung
      have young : leafRotateUnder ≤ leaf.notAfter - later := by omega
      have running : later ≤ leaf.notAfter := by omega
      exact serves.staysAt dated nonempty domains
        (Certificate.regenerates_eq_none.mpr ⟨serves.caNames, caYoung⟩) young since running
    refine ⟨ca, leaf, serves.caPaired.1, serves.leafCert, ends, stays, ?_⟩
    intro cut later since kept
    have caYoung := (Certificate.regenerates_eq_none.mp kept).2
    exact stays later since caYoung (cut ▸ caYoung)
  · intro calls again store edited after afterAgain names namesAgain read readAgain host same
    exact hostnames_eq read readAgain host same
  · intro calls again store edited after afterAgain names namesAgain read readAgain host same
      computed computedAgain now earlier world clock regenerated made clockRead ensured next error
    obtain ⟨own, -, -, -, -, sans⟩ := hostnames_reads read computed
    rw [sans] at same
    cases hostnames_eq read readAgain (foldedHost_restart read computed host) same computed
      computedAgain
    obtain ⟨-, ca, leaf, serves⟩ := made.serves clockRead ensured
    exact serves.ensure_ne_hostnames error

/-- A daemon named `a.example` with a list of extra SANs. -/
def sansStore (extraSANs : String) : IdentityStore where
  settings := fun key => if key = "hostname" then some "a.example".toList
    else if key = "extra_sans" then some extraSANs.toList else none
  credentials := 0

/-- Store calls that work. -/
def workingStart : HostnamesCalls := ⟨.ok, .error "no name", .ok, .ok, .ok⟩

theorem hostnames_sansStore (extraSANs : String) :
    hostnames asciiTables workingStart (sansStore extraSANs) =
      (.ok (answeredNames asciiTables "a.example".toList extraSANs.toList),
        sansStore extraSANs) := by
  rfl

/-- The directory of a daemon's first start a day later, and a restart after its extra SANs were
written in another order. -/
theorem first_directory_stays :
    StaysAt ["a.example".toList] (clockAt (24 * hour)) firstDirectory ∧
      ∃ names, hostnames asciiTables workingStart (sansStore "b.example,c.example") =
          (.ok names, sansStore "b.example,c.example") ∧
        hostnames asciiTables workingStart (sansStore " C.example. ,B.EXAMPLE,") =
          (.ok names, sansStore " C.example. ,B.EXAMPLE,") := by
  constructor
  · have read : (clockAt 0).Until 0 := by constructor <;> decide
    obtain ⟨ca, leaf, held, here, -, stays, -⟩ := (rotation_fixpoint asciiTables).1
      ["a.example".toList] (by decide) (by decide) 0 .fresh firstDirectory (clockAt 0) .none
      ⟨[], .nil⟩ read rfl
    cases held
    cases here
    exact stays (24 * hour) (by decide) (by decide) (by decide)
  · have same := (rotation_fixpoint asciiTables).2.1 workingStart workingStart
      (sansStore "b.example,c.example") (sansStore " C.example. ,B.EXAMPLE,") _ _ _ _ rfl rfl rfl
      (by decide) (hostnames_sansStore _) (hostnames_sansStore _)
    exact ⟨_, hostnames_sansStore _, same ▸ hostnames_sansStore _⟩

end Multimux
