/-
This file models how the listener picks up a rotated leaf. A handshake asks the
reloader for the pair under its mutex: it looks at the modification time of the
certificate file and loads the two files when it is not the cached one. A
rotation replaces the files with two renames, the certificate first, and these
fall anywhere between the reads of a handshake. A load that mixes two rotations
fails and leaves the cache, and a pair is never cached under the time of a later
certificate file, so the next handshake finds the cache out of date and loads
again.
-/

import Multimux.Interleaving

namespace Multimux

/-! ### The files and the cache -/

section Reloader

variable {Time : Type*}

/-- A certificate and a private key, each as the number of the rotation that wrote it. -/
structure KeyPair where
  cert : Nat
  key : Nat
  deriving DecidableEq

/-- Which call of `get` failed: `os.Stat` or `tls.LoadX509KeyPair`. -/
inductive ReloadError
  | stat
  | load

/-- The cached pair, with the modification time that was read before it was loaded. -/
structure CachedPair (Time : Type*) where
  pair : KeyPair
  modTime : Time

/-- What a call of `get` returned, and how many renames had been made when it came to hold the
mutex and when it let go of it. -/
structure Handshake where
  beganAfter : Nat
  endedAfter : Nat
  cert : Option KeyPair
  err : Option ReloadError

/-- The two leaf files, the renames made so far, the reloader and what it returned so far. -/
structure ReloadWorld (Time : Type*) where
  certFile : Option Nat
  keyFile : Option Nat
  renames : Nat
  mu : Bool
  cached : Option (CachedPair Time)
  served : List Handshake

/-- The next rename: a rotation puts its certificate in place and then its key, and the next one
begins with its certificate. -/
def ReloadWorld.rename (world : ReloadWorld Time) : ReloadWorld Time :=
  if world.renames % 2 = 0 then
    { world with certFile := some (world.renames / 2), renames := world.renames + 1 }
  else
    { world with keyFile := some (world.renames / 2), renames := world.renames + 1 }

/-- How many renames have been made when a rotation has just been completed. -/
def renamesThrough (rotation : Nat) : Nat :=
  2 * (rotation + 1)

/-! ### A handshake -/

/-- Where a call of `get` stands; from `stating` on it holds the mutex, and knows how many
renames had been made when it took it. -/
inductive HandshakeProc (Time : Type*)
  | locking
  | stating (began : Nat)
  | loadingCert (began : Nat) (modTime : Time)
  | loadingKey (began : Nat) (modTime : Time) (cert : Nat)
  | returning (began : Nat) (err : Option ReloadError)
  | returned

/-- `get`, one access to the disk or the mutex at a time; a certificate file has the modification
time that its rotation gave it. -/
def stepGet [DecidableEq Time] (modTimes : Nat → Time) (world : ReloadWorld Time) :
    HandshakeProc Time → Option (ReloadWorld Time × HandshakeProc Time)
  | .locking =>
    if world.mu then none else some ({ world with mu := true }, .stating world.renames)
  | .stating began =>
    match world.certFile.map modTimes with
    | none => some (world, .returning began (some .stat))
    | some modTime =>
      if world.cached.map (·.modTime) = some modTime then some (world, .returning began none)
      else some (world, .loadingCert began modTime)
  | .loadingCert began modTime =>
    match world.certFile with
    | none => some (world, .returning began (some .load))
    | some cert => some (world, .loadingKey began modTime cert)
  | .loadingKey began modTime cert =>
    match world.keyFile with
    | none => some (world, .returning began (some .load))
    | some key =>
      -- A certificate matches the private key of its own rotation only.
      if cert = key then
        some ({ world with cached := some ⟨⟨cert, key⟩, modTime⟩ }, .returning began none)
      else some (world, .returning began (some .load))
  | .returning began err =>
    let cert := world.cached.map (·.pair)
    let handshake : Handshake :=
      ⟨began, world.renames, cert, if cert.isSome then none else err⟩
    some ({ world with mu := false, served := world.served ++ [handshake] }, .returned)
  | .returned => none

/-- Overlapping handshakes, with the renames from outside. -/
def reloadMachine [DecidableEq Time] (modTimes : Nat → Time) :
    Machine (ReloadWorld Time) Unit (HandshakeProc Time) Unit Unit where
  enter _ := .locking
  step world proc _ := stepGet modTimes world proc
  outside world _ := some world.rename

/-- A directory without a leaf, and a reloader that nobody asked yet. -/
def unaskedReloader : Pool (ReloadWorld Time) (HandshakeProc Time) where
  world :=
    { certFile := none, keyFile := none, renames := 0, mu := false, cached := none, served := [] }
  procs := []

/-! ### What the files hold -/

/-- The last of the first `count` rotations. -/
def lastRotation : Nat → Option Nat
  | 0 => none
  | count + 1 => some count

theorem lastRotation_eq_some {count rotation : Nat} :
    lastRotation count = some rotation ↔ count = rotation + 1 := by
  cases count <;> simp [lastRotation]

theorem lastRotation_eq_none {count : Nat} : lastRotation count = none ↔ count = 0 := by
  cases count <;> simp [lastRotation]

/-- The pair in the cache is of one completed rotation, and the time beside it is of a
certificate no newer. -/
def CachedPair.Right (modTimes : Nat → Time) (renames : Nat) (cached : CachedPair Time) : Prop :=
  ∃ rotation stamp, cached.pair = ⟨rotation, rotation⟩ ∧ cached.modTime = modTimes stamp ∧
    stamp ≤ rotation ∧ rotation < renames / 2

/-- What a call may return. -/
structure Handshake.Right (handshake : Handshake) : Prop where
  matching : ∀ pair, handshake.cert = some pair →
    ∃ rotation < handshake.endedAfter / 2, pair = ⟨rotation, rotation⟩
  latest : ∀ rotation, handshake.beganAfter = renamesThrough rotation →
    handshake.endedAfter = renamesThrough rotation → handshake.cert = some ⟨rotation, rotation⟩
  answered : handshake.cert = none ↔ handshake.err ≠ none

/-- The one served no newer a pair than the other. -/
def Handshake.NoNewer (handshake other : Handshake) : Prop :=
  ∀ pair next, handshake.cert = some pair → other.cert = some next → pair.cert ≤ next.cert

/-- What holds of the files, the cache and the answers given. -/
structure ReloadWorld.Sound (modTimes : Nat → Time) (world : ReloadWorld Time) : Prop where
  certFile : world.certFile = lastRotation ((world.renames + 1) / 2)
  keyFile : world.keyFile = lastRotation (world.renames / 2)
  cached : ∀ cached ∈ world.cached, cached.Right modTimes world.renames
  served : ∀ handshake ∈ world.served, handshake.Right
  ordered : world.served.Pairwise Handshake.NoNewer
  behind : ∀ handshake ∈ world.served, ∀ pair, handshake.cert = some pair →
    ∃ cached ∈ world.cached, pair.cert ≤ cached.pair.cert

/-- A rotation whose certificate was in place at some time since the renames counted, and that
the cache is not ahead of. -/
structure ReloadWorld.SeenSince (world : ReloadWorld Time) (began rotation : Nat) : Prop where
  placed : rotation < (world.renames + 1) / 2
  since : (began + 1) / 2 ≤ rotation + 1
  ahead : ∀ cached ∈ world.cached, cached.pair.cert ≤ rotation

/-- What a call relies on where it stands. -/
def HandshakeProc.Stands (modTimes : Nat → Time) (world : ReloadWorld Time) :
    HandshakeProc Time → Prop
  | .locking | .returned => True
  | .stating began => began ≤ world.renames
  | .loadingCert began modTime =>
    began ≤ world.renames ∧ ∃ stamp, modTime = modTimes stamp ∧ world.SeenSince began stamp
  | .loadingKey began modTime cert =>
    began ≤ world.renames ∧ world.SeenSince began cert ∧
      ∃ stamp ≤ cert, modTime = modTimes stamp
  | .returning began err =>
    began ≤ world.renames ∧ (world.cached = none → err ≠ none) ∧
      ∀ rotation, began = renamesThrough rotation → world.renames = renamesThrough rotation →
        world.cached.map (·.pair) = some ⟨rotation, rotation⟩

/-- The call holds the mutex. -/
def HandshakeProc.inside : HandshakeProc Time → Bool
  | .locking | .returned => false
  | _ => true

/-- What a handshake that stands somewhere holds of the shared files and of the mutex. -/
def reloadOutline (modTimes : Nat → Time) : Outline (ReloadWorld Time) (HandshakeProc Time) where
  shared := ReloadWorld.Sound modTimes
  here world proc := proc.Stands modTimes world ∧ (proc.inside = true → world.mu = true)
  apart one other := one.inside = true → other.inside = false

/-! ### Renames -/

theorem ReloadWorld.renames_rename (world : ReloadWorld Time) :
    world.rename.renames = world.renames + 1 := by
  unfold rename
  split <;> rfl

theorem ReloadWorld.rename_keeps (world : ReloadWorld Time) :
    world.rename.mu = world.mu ∧ world.rename.cached = world.cached ∧
      world.rename.served = world.served := by
  unfold rename
  split <;> exact ⟨rfl, rfl, rfl⟩

theorem ReloadWorld.Sound.rename {modTimes : Nat → Time} {world : ReloadWorld Time}
    (sound : world.Sound modTimes) : world.rename.Sound modTimes := by
  obtain ⟨-, cache, served⟩ := world.rename_keeps
  refine ⟨?_, ?_, ?_, served ▸ sound.served, served ▸ sound.ordered,
    served ▸ cache ▸ sound.behind⟩
  · rw [world.renames_rename]
    unfold ReloadWorld.rename
    split
    · exact (lastRotation_eq_some.mpr (by omega)).symm
    · dsimp only
      rw [sound.certFile]
      congr 1
      omega
  · rw [world.renames_rename]
    unfold ReloadWorld.rename
    split
    · dsimp only
      rw [sound.keyFile]
      congr 1
      omega
    · exact (lastRotation_eq_some.mpr (by omega)).symm
  · intro cached member
    rw [cache] at member
    obtain ⟨rotation, stamp, pair, modTime, stamped, complete⟩ := sound.cached cached member
    refine ⟨rotation, stamp, pair, modTime, stamped, ?_⟩
    rw [world.renames_rename]
    omega

theorem ReloadWorld.SeenSince.rename {world : ReloadWorld Time} {began rotation : Nat}
    (seen : world.SeenSince began rotation) : world.rename.SeenSince began rotation := by
  obtain ⟨-, cache, -⟩ := world.rename_keeps
  refine ⟨?_, seen.since, cache ▸ seen.ahead⟩
  have placed := seen.placed
  rw [world.renames_rename]
  omega

theorem HandshakeProc.Stands.rename {modTimes : Nat → Time} {world : ReloadWorld Time}
    {proc : HandshakeProc Time} (stands : proc.Stands modTimes world) :
    proc.Stands modTimes world.rename := by
  have more := world.renames_rename
  obtain ⟨-, cache, -⟩ := world.rename_keeps
  cases proc with
  | locking | returned => exact trivial
  | stating began =>
    have later : began ≤ world.renames := stands
    change began ≤ world.rename.renames
    omega
  | loadingCert began modTime =>
    obtain ⟨later, stamp, read, seen⟩ := stands
    exact ⟨by omega, stamp, read, seen.rename⟩
  | loadingKey began modTime cert =>
    obtain ⟨later, seen, stamped⟩ := stands
    exact ⟨by omega, seen.rename, stamped⟩
  | returning began err =>
    obtain ⟨later, fails, -⟩ := stands
    refine ⟨by omega, cache ▸ fails, ?_⟩
    -- A call that a rename fell into did not run without one.
    intro rotation start finish
    omega

/-! ### The steps of a handshake -/

/-- The call that holds the mutex disturbs no other. -/
theorem ReloadWorld.Sound.kept_of_stands {modTimes : Nat → Time}
    {pool : Pool (ReloadWorld Time) (HandshakeProc Time)} {index : Nat}
    {proc after : HandshakeProc Time} (holds : (reloadOutline modTimes).Holds pool)
    (present : pool.procs[index]? = some proc) (within : proc.inside = true)
    {world : ReloadWorld Time} (sound : world.Sound modTimes) (stands : after.Stands modTimes world)
    (locked : after.inside = true → world.mu = true) :
    (reloadOutline modTimes).Kept pool index world after where
  shared := sound
  here := ⟨stands, locked⟩
  others := by
    intro other waiting different there
    have outside : waiting.inside = false :=
      holds.apart index other proc waiting (Ne.symm different) present there within
    refine ⟨⟨?_, fun inside => absurd (outside.symm.trans inside) (by decide)⟩,
      fun _ => outside, fun inside => absurd (outside.symm.trans inside) (by decide)⟩
    cases waiting with
    | locking | returned => exact trivial
    | _ => cases outside

/-- The certificate file that a call sees. -/
theorem ReloadWorld.Sound.seen {modTimes : Nat → Time} {world : ReloadWorld Time}
    (sound : world.Sound modTimes) {cert : Nat} (placed : world.certFile = some cert)
    {began : Nat} (later : began ≤ world.renames) : world.SeenSince began cert := by
  rw [sound.certFile, lastRotation_eq_some] at placed
  refine ⟨by omega, by omega, fun cached member => ?_⟩
  obtain ⟨rotation, stamp, pair, -, -, complete⟩ := sound.cached cached member
  rw [pair]
  change rotation ≤ cert
  omega

/-- A call that finds its time in the cache serves the certificate of that time, if no rename
falls into it. -/
theorem ReloadWorld.Sound.current {modTimes : Nat → Time} (distinct : Function.Injective modTimes)
    {world : ReloadWorld Time} (sound : world.Sound modTimes) {cached : CachedPair Time}
    (member : cached ∈ world.cached) {cert : Nat} (placed : world.certFile = some cert)
    (same : cached.modTime = modTimes cert) {rotation : Nat}
    (finish : world.renames = renamesThrough rotation) :
    cached.pair = ⟨rotation, rotation⟩ := by
  obtain ⟨cachedRotation, stamp, pair, modTime, stamped, complete⟩ := sound.cached cached member
  have stampEq : stamp = cert := distinct (modTime.symm.trans same)
  rw [sound.certFile, lastRotation_eq_some] at placed
  have found : cachedRotation = rotation := by
    unfold renamesThrough at finish
    omega
  rw [pair, found]

/-- A load that no rename fell into finds both halves of the latest rotation. -/
theorem ReloadWorld.Sound.loads {modTimes : Nat → Time} {world : ReloadWorld Time}
    (sound : world.Sound modTimes) {began cert rotation : Nat} (seen : world.SeenSince began cert)
    (start : began = renamesThrough rotation) (finish : world.renames = renamesThrough rotation) :
    cert = rotation ∧ world.keyFile = some rotation := by
  have placed := seen.placed
  have since := seen.since
  unfold renamesThrough at start finish
  refine ⟨by omega, ?_⟩
  rw [sound.keyFile, lastRotation_eq_some]
  omega

/-- The answer of a call. -/
theorem ReloadWorld.Sound.serve {modTimes : Nat → Time} {world : ReloadWorld Time}
    (sound : world.Sound modTimes) {began : Nat} {err : Option ReloadError}
    (fails : world.cached = none → err ≠ none)
    (latest : ∀ rotation, began = renamesThrough rotation →
      world.renames = renamesThrough rotation →
      world.cached.map (·.pair) = some ⟨rotation, rotation⟩) :
    ({ world with
        mu := false
        served := world.served ++ [⟨began, world.renames, world.cached.map (·.pair),
          if (world.cached.map (·.pair)).isSome then none else err⟩] } :
      ReloadWorld Time).Sound modTimes := by
  refine ⟨sound.certFile, sound.keyFile, sound.cached, ?_, ?_, ?_⟩
  · intro handshake member
    rcases List.mem_append.mp member with old | new
    · exact sound.served handshake old
    · obtain rfl := List.mem_singleton.mp new
      refine ⟨?_, latest, ?_⟩
      · intro pair answered
        obtain ⟨cached, held, rfl⟩ := Option.map_eq_some_iff.mp answered
        obtain ⟨rotation, -, pair, -, -, complete⟩ := sound.cached cached held
        exact ⟨rotation, complete, pair⟩
      · cases held : world.cached with
        | none => simpa using fails held
        | some cached => simp
  · refine List.pairwise_append.mpr ⟨sound.ordered, List.pairwise_singleton _ _, ?_⟩
    intro handshake member other new pair next first second
    obtain rfl := List.mem_singleton.mp new
    obtain ⟨cached, held, rfl⟩ := Option.map_eq_some_iff.mp second
    obtain ⟨ahead, heldAgain, noNewer⟩ := sound.behind handshake member pair first
    cases heldAgain.symm.trans held
    exact noNewer
  · intro handshake member pair first
    rcases List.mem_append.mp member with old | new
    · exact sound.behind handshake old pair first
    · obtain rfl := List.mem_singleton.mp new
      obtain ⟨cached, held, rfl⟩ := Option.map_eq_some_iff.mp first
      exact ⟨cached, held, Nat.le_refl _⟩

/-- A pair that was loaded and matches replaces the cached one. -/
theorem ReloadWorld.Sound.cache {modTimes : Nat → Time} {world : ReloadWorld Time}
    (sound : world.Sound modTimes) {began cert stamp : Nat} (seen : world.SeenSince began cert)
    (stamped : stamp ≤ cert) (key : world.keyFile = some cert) :
    ({ world with cached := some ⟨⟨cert, cert⟩, modTimes stamp⟩ } :
      ReloadWorld Time).Sound modTimes := by
  refine ⟨sound.certFile, sound.keyFile, ?_, sound.served, sound.ordered, ?_⟩
  · rintro cached ⟨⟩
    rw [sound.keyFile, lastRotation_eq_some] at key
    exact ⟨cert, stamp, rfl, rfl, stamped, by dsimp only; omega⟩
  · intro handshake member pair first
    obtain ⟨cached, held, noNewer⟩ := sound.behind handshake member pair first
    exact ⟨_, rfl, Nat.le_trans noNewer (seen.ahead cached held)⟩

variable [DecidableEq Time]

/-- A step of a call keeps the outline. -/
theorem reload_kept {modTimes : Nat → Time} (distinct : Function.Injective modTimes)
    {pool : Pool (ReloadWorld Time) (HandshakeProc Time)} {index : Nat}
    {proc after : HandshakeProc Time} {world : ReloadWorld Time}
    (holds : (reloadOutline modTimes).Holds pool) (present : pool.procs[index]? = some proc)
    (stepped : stepGet modTimes pool.world proc = some (world, after)) :
    (reloadOutline modTimes).Kept pool index world after := by
  obtain ⟨stands, locked⟩ := holds.here index proc present
  have sound : pool.world.Sound modTimes := holds.shared
  cases proc with
  | locking =>
    simp only [stepGet] at stepped
    split at stepped
    · cases stepped
    · rename_i free
      cases stepped
      refine ⟨⟨sound.certFile, sound.keyFile, sound.cached, sound.served, sound.ordered,
        sound.behind⟩, ⟨Nat.le_refl _, fun _ => rfl⟩, ?_⟩
      intro other waiting different there
      obtain ⟨-, held⟩ := holds.here other waiting there
      have outside : waiting.inside = false := by
        by_contra within
        exact free (held (by simpa using within))
      refine ⟨⟨?_, fun _ => rfl⟩, fun _ => outside,
        fun inside => absurd (outside.symm.trans inside) (by decide)⟩
      cases waiting with
      | locking | returned => exact trivial
      | _ => cases outside
  | stating began =>
    have later : began ≤ pool.world.renames := stands
    simp only [stepGet] at stepped
    split at stepped
    · rename_i missing
      cases stepped
      refine sound.kept_of_stands holds present rfl ⟨later, fun _ => by simp, ?_⟩ locked
      intro rotation _ finish
      rw [Option.map_eq_none_iff, sound.certFile, lastRotation_eq_none] at missing
      unfold renamesThrough at finish
      omega
    · rename_i modTime found
      obtain ⟨cert, placed, rfl⟩ := Option.map_eq_some_iff.mp found
      split at stepped
      · rename_i unchanged
        cases stepped
        obtain ⟨cached, held, same⟩ := Option.map_eq_some_iff.mp unchanged
        refine sound.kept_of_stands holds present rfl ⟨later, by simp [held], ?_⟩ locked
        intro rotation _ finish
        rw [held, Option.map_some, sound.current distinct held placed same finish]
      · cases stepped
        exact sound.kept_of_stands holds present rfl
          ⟨later, cert, rfl, sound.seen placed later⟩ locked
  | loadingCert began modTime =>
    obtain ⟨later, stamp, rfl, seen⟩ := stands
    simp only [stepGet] at stepped
    split at stepped
    · rename_i missing
      have placed := seen.placed
      rw [sound.certFile, lastRotation_eq_none] at missing
      omega
    · rename_i cert placed
      cases stepped
      refine sound.kept_of_stands holds present rfl
        ⟨later, sound.seen placed later, stamp, ?_, rfl⟩ locked
      have before := seen.placed
      rw [sound.certFile, lastRotation_eq_some] at placed
      omega
  | loadingKey began modTime cert =>
    obtain ⟨later, seen, stamp, stamped, rfl⟩ := stands
    simp only [stepGet] at stepped
    split at stepped
    · rename_i missing
      cases stepped
      refine sound.kept_of_stands holds present rfl ⟨later, fun _ => by simp, ?_⟩ locked
      intro rotation start finish
      cases missing.symm.trans (sound.loads seen start finish).2
    · rename_i key found
      split at stepped
      · rename_i same
        subst same
        cases stepped
        refine (sound.cache seen stamped found).kept_of_stands holds present rfl
          ⟨later, by simp, ?_⟩ locked
        intro rotation start finish
        rw [(sound.loads seen start finish).1]
        rfl
      · rename_i mixed
        cases stepped
        refine sound.kept_of_stands holds present rfl ⟨later, fun _ => by simp, ?_⟩ locked
        intro rotation start finish
        obtain ⟨rfl, latest⟩ := sound.loads seen start finish
        exact absurd (Option.some.inj (latest.symm.trans found)) mixed
  | returning began err =>
    obtain ⟨later, fails, latest⟩ := stands
    cases stepped
    exact (sound.serve fails latest).kept_of_stands holds present rfl trivial (by rintro ⟨⟩)
  | returned => cases stepped

/-! ### Runs -/

/-- The outline holds in every run. -/
theorem reload_holds {modTimes : Nat → Time} (distinct : Function.Injective modTimes)
    {moves : List (Move Unit Unit Unit)} {final : Pool (ReloadWorld Time) (HandshakeProc Time)}
    (run : Run (reloadMachine modTimes).next anything unaskedReloader moves final) :
    (reloadOutline modTimes).Holds final := by
  refine Outline.holds_of_run _ ?_ ?_ ?_ (Outline.holds_empty _ ?_) run
  · intro pool _ _ _
    exact ⟨⟨trivial, by rintro ⟨⟩⟩, fun proc _ => ⟨by rintro ⟨⟩, fun _ => rfl⟩⟩
  · intro pool index _ proc world after holds _ present stepped
    exact reload_kept distinct holds present stepped
  · intro pool _ world holds _ occurred
    cases occurred
    have locked := pool.world.rename_keeps.1
    exact ⟨ReloadWorld.Sound.rename holds.shared,
      fun index proc present => ⟨(holds.here index proc present).1.rename, fun inside =>
        locked.trans ((holds.here index proc present).2 inside)⟩, holds.apart⟩
  · refine ⟨?_, ?_, ?_, ?_, .nil, ?_⟩ <;> simp [lastRotation]

/-- A call leaves a filled cache filled, and answers from it. -/
theorem stepGet_cached {modTimes : Nat → Time} {world after : ReloadWorld Time}
    {proc next : HandshakeProc Time}
    (stepped : stepGet modTimes world proc = some (after, next)) (filled : world.cached ≠ none) :
    after.cached ≠ none ∧ ∃ since, after.served = world.served ++ since ∧
      ∀ handshake ∈ since, handshake.cert ≠ none := by
  have unserved : ∃ since, world.served = world.served ++ since ∧
      ∀ handshake ∈ since, handshake.cert ≠ none :=
    ⟨[], (List.append_nil _).symm, by simp⟩
  cases proc with
  | locking =>
    simp only [stepGet] at stepped
    split at stepped
    · cases stepped
    · cases stepped
      exact ⟨filled, unserved⟩
  | stating began =>
    simp only [stepGet] at stepped
    split at stepped
    · cases stepped
      exact ⟨filled, unserved⟩
    · split at stepped <;> cases stepped <;> exact ⟨filled, unserved⟩
  | loadingCert began modTime =>
    simp only [stepGet] at stepped
    split at stepped <;> cases stepped <;> exact ⟨filled, unserved⟩
  | loadingKey began modTime cert =>
    simp only [stepGet] at stepped
    split at stepped
    · cases stepped
      exact ⟨filled, unserved⟩
    · split at stepped
      · cases stepped
        exact ⟨by simp, unserved⟩
      · cases stepped
        exact ⟨filled, unserved⟩
  | returning began err =>
    cases stepped
    exact ⟨filled, _, rfl, by simpa using filled⟩
  | returned => cases stepped

/-- Once the cache is filled every call is answered from it. -/
theorem served_of_cached {modTimes : Nat → Time} {moves : List (Move Unit Unit Unit)}
    {middle final : Pool (ReloadWorld Time) (HandshakeProc Time)}
    (filled : middle.world.cached ≠ none)
    (run : Run (reloadMachine modTimes).next anything middle moves final) :
    ∃ since, final.world.served = middle.world.served ++ since ∧
      ∀ handshake ∈ since, handshake.cert ≠ none := by
  have kept := run.invariant (fun pool => pool.world.cached ≠ none ∧
    ∃ since, pool.world.served = middle.world.served ++ since ∧
      ∀ handshake ∈ since, handshake.cert ≠ none)
    ⟨filled, [], (List.append_nil _).symm, by simp⟩ ?_
  · exact kept.2
  · rintro pool move next ⟨held, since, served, answered⟩ - taken
    cases move with
    | arrive request =>
      cases taken
      exact ⟨held, since, served, answered⟩
    | advance index choice =>
      obtain ⟨proc, world, after, -, stepped, rfl⟩ := Machine.next_advance taken
      obtain ⟨still, more, grown, each⟩ := stepGet_cached stepped held
      refine ⟨still, since ++ more, ?_, ?_⟩
      · rw [← List.append_assoc, ← served]
        exact grown
      · intro handshake member
        exact (List.mem_append.mp member).elim (answered handshake) (each handshake)
    | occur event =>
      obtain ⟨world, occurred, rfl⟩ := Machine.next_occur taken
      cases occurred
      obtain ⟨-, cache, same⟩ := pool.world.rename_keeps
      exact ⟨cache ▸ held, since, same.trans served, answered⟩

/-- However handshakes and renames interleave: a certificate that is served is the matching pair
of one completed rotation; once a pair has been loaded no call fails; the pairs served are never
older than the ones before; and a call during which no rotation is in progress serves the pair of
the latest one. The call counts from when it holds the mutex, and so all the more from when it was
made. -/
theorem certReloader_serves {modTimes : Nat → Time} (distinct : Function.Injective modTimes)
    {moves : List (Move Unit Unit Unit)} {final : Pool (ReloadWorld Time) (HandshakeProc Time)}
    (run : Run (reloadMachine modTimes).next anything unaskedReloader moves final) :
    (∀ handshake ∈ final.world.served, ∀ pair, handshake.cert = some pair →
      ∃ rotation < handshake.endedAfter / 2, pair = ⟨rotation, rotation⟩) ∧
    (∀ earlier later middle, moves = earlier ++ later →
      Run (reloadMachine modTimes).next anything unaskedReloader earlier middle →
      middle.world.cached ≠ none →
      ∃ since, final.world.served = middle.world.served ++ since ∧
        ∀ handshake ∈ since, handshake.cert ≠ none) ∧
    final.world.served.Pairwise (fun handshake other => ∀ pair next,
      handshake.cert = some pair → other.cert = some next → pair.cert ≤ next.cert) ∧
    ∀ handshake ∈ final.world.served, ∀ rotation,
      handshake.beganAfter = renamesThrough rotation →
      handshake.endedAfter = renamesThrough rotation →
      handshake.cert = some ⟨rotation, rotation⟩ := by
  have sound : final.world.Sound modTimes := (reload_holds distinct run).shared
  refine ⟨fun handshake member => (sound.served handshake member).matching, ?_, sound.ordered,
    fun handshake member => (sound.served handshake member).latest⟩
  intro earlier later middle spelled reached filled
  rw [spelled] at run
  obtain ⟨state, upTo, onward⟩ := run.split
  cases upTo.unique reached
  exact served_of_cached filled onward

end Reloader

/-- A handshake that falls between the two renames of a second rotation, and one after them. -/
def rotatedDuringHandshakes : List (Move Unit Unit Unit) :=
  [.occur (), .occur (), .arrive (), .advance 0 (), .advance 0 (), .advance 0 (), .advance 0 (),
    .advance 0 (), .arrive (), .advance 1 (), .occur (), .advance 1 (), .advance 1 (),
    .advance 1 (), .advance 1 (), .occur (), .arrive (), .advance 2 (), .advance 2 (),
    .advance 2 (), .advance 2 (), .advance 2 ()]

/-- The one is answered with the pair of the first rotation, the other with that of the second. -/
theorem rotatedDuringHandshakes_served :
    ∃ final, Run (reloadMachine (id : Nat → Nat)).next anything unaskedReloader
        rotatedDuringHandshakes final ∧
      final.world.served.map (·.cert) = [some ⟨0, 0⟩, some ⟨0, 0⟩, some ⟨1, 1⟩] ∧
      ∀ handshake ∈ final.world.served, ∀ pair, handshake.cert = some pair →
        ∃ rotation < handshake.endedAfter / 2, pair = ⟨rotation, rotation⟩ := by
  obtain ⟨final, computed, served⟩ := exists_of_exec (reloadMachine (id : Nat → Nat)).next
    unaskedReloader rotatedDuringHandshakes
    (fun pool => pool.world.served.map (·.cert) = [some ⟨0, 0⟩, some ⟨0, 0⟩, some ⟨1, 1⟩]) rfl
  have run := Run.of_exec_anything computed
  exact ⟨final, run, by simpa using served,
    (certReloader_serves Function.injective_id run).1⟩

end Multimux
