/-
This file models the restart of the launchd job and the system around it: the
job that is loaded under the label, the old one on its way out, bootstraps that
load the new job and report an error all the same, and a clock that may run
ahead between any two calls. The label is watched until it was seen free, and
from then on a loaded job can only be the new one, which is what the retries
go by.
-/

import Mathlib.Data.List.Basic

namespace Multimux

/-! ### The system -/

/-- What is loaded under the label. -/
inductive Job
  | none
  | old
  | new
  deriving DecidableEq

/-- What becomes of a bootstrap while nothing is loaded. -/
inductive BootstrapOutcome
  | loads (error : Option String)
  | fails (error : String)

/-- What launchd and the clock do, by the number of calls before: whether the old job goes, how
much time passes, and how a bootstrap ends. -/
structure Launchd where
  leaves : Nat → Bool
  passes : Nat → Nat
  bootstraps : Nat → BootstrapOutcome
  refuses : Nat → String

/-- The job and the time in nanoseconds. `attempts` is a history variable: of each bootstrap
whether it loaded the new job. -/
structure AgentWorld where
  job : Job
  now : Nat
  calls : Nat
  attempts : List Bool
  deriving DecidableEq

/-- How long a poll waits. -/
def pollInterval : Nat := 200 * 1000000

/-- How long the old job may take to stop. -/
def bootoutTimeout : Nat := 15 * 1000000000

/-- How often the job is loaded at most. -/
def bootstrapTries : Nat := 5

namespace AgentWorld

variable (launchd : Launchd) (world : AgentWorld)

/-- What happens up to the next call, which waits for a duration first. -/
def moment (duration : Nat) : AgentWorld :=
  { world with
    job := if world.job = .old ∧ launchd.leaves world.calls = true then .none else world.job
    now := world.now + duration + launchd.passes world.calls
    calls := world.calls + 1 }

/-- `launchctl bootout`, which returns while the job is still there. -/
def bootout : AgentWorld := { world with
  now := world.now + launchd.passes world.calls
  calls := world.calls + 1 }

/-- `time.Sleep`. -/
def sleep (duration : Nat) : AgentWorld := world.moment launchd duration

/-- `launchctl print` finds the job. -/
def jobLoaded : AgentWorld × Bool :=
  let world := world.moment launchd 0
  (world, world.job ≠ .none)

/-- `launchctl bootstrap`. -/
def bootstrap : AgentWorld × Option String :=
  let world := world.moment launchd 0
  if world.job ≠ .none then
    ({ world with attempts := world.attempts ++ [false] }, some (launchd.refuses world.calls))
  else
    match launchd.bootstraps world.calls with
    | .loads error => ({ world with job := .new, attempts := world.attempts ++ [true] }, error)
    | .fails error => ({ world with attempts := world.attempts ++ [false] }, some error)

/-! ### The restart -/

/-- The polls up to the deadline. -/
def pollUntilGone (deadline : Nat) (world : AgentWorld) : AgentWorld × Bool :=
  if (world.jobLoaded launchd).2 = false then ((world.jobLoaded launchd).1, true)
  else if deadline < ((world.jobLoaded launchd).1.moment launchd 0).now then
    ((world.jobLoaded launchd).1.moment launchd 0, false)
  else
    pollUntilGone deadline
      (((world.jobLoaded launchd).1.moment launchd 0).sleep launchd pollInterval)
termination_by deadline + 1 - world.now
decreasing_by
  simp only [jobLoaded, sleep, moment, pollInterval, Nat.not_lt] at *
  omega

/-- The job is polled until it is gone or the time is up. -/
def waitUntilGone : AgentWorld × Bool :=
  pollUntilGone launchd (world.now + bootoutTimeout) world

end AgentWorld

/-- What a restart fails with. -/
inductive RestartError
  | didNotStop (error : String)
  | bootstrap (error : String)
  deriving DecidableEq

/-- The text of the error. -/
def RestartError.message : RestartError → String
  | didNotStop error => "the previous daemon did not stop: " ++ error
  | bootstrap error => error

namespace AgentWorld

variable (launchd : Launchd)

/-- The bootstraps that are left to try, with the last error; all but the first one wait. -/
def tryBootstrap : Nat → AgentWorld → Option RestartError → AgentWorld × Option RestartError
  | 0, world, lastErr => (world, lastErr)
  | tries + 1, world, _ =>
    let world := if tries + 1 < bootstrapTries then world.sleep launchd pollInterval else world
    match world.bootstrap launchd with
    | (world, none) => (world, none)
    | (world, some error) =>
      match world.jobLoaded launchd with
      | (world, true) => (world, none)
      | (world, false) => tryBootstrap tries world (some (.bootstrap error))

/-- `restartAgent`: the old job is stopped, then the new one loaded. -/
def restartAgent (world : AgentWorld) : AgentWorld × Option RestartError :=
  let waited := (world.bootout launchd).waitUntilGone launchd
  if waited.2 = false then
    let tried := waited.1.bootstrap launchd
    (tried.1, tried.2.map .didNotStop)
  else tryBootstrap launchd bootstrapTries waited.1 none

/-! ### Single calls -/

section Calls

variable {launchd} {world : AgentWorld}

@[simp]
theorem moment_attempts (duration : Nat) :
    (world.moment launchd duration).attempts = world.attempts := rfl

theorem moment_job (duration : Nat) : (world.moment launchd duration).job = world.job ∨
    world.job = .old ∧ (world.moment launchd duration).job = .none := by
  unfold moment
  dsimp only
  split_ifs with leaves
  · exact .inr ⟨leaves.1, rfl⟩
  · exact .inl rfl

/-- Without the old job nothing changes by itself. -/
theorem moment_gone (gone : world.job ≠ .old) (duration : Nat) :
    (world.moment launchd duration).job = world.job :=
  (moment_job duration).resolve_right fun left => gone left.1

/-- An old job that is there was there before. -/
theorem old_of_moment {duration : Nat} (old : (world.moment launchd duration).job = .old) :
    world.job = .old := by
  have job : (world.moment launchd duration).job = world.job ∨ _ := moment_job duration
  rcases job with same | ⟨-, gone⟩
  · exact same.symm.trans old
  · rw [gone] at old
    cases old

theorem moment_stays (never : ∀ call, launchd.leaves call = false) (duration : Nat) :
    (world.moment launchd duration).job = world.job := by
  simp [moment, never]

/-- How a bootstrap ends: it is refused, it loads the new job, or it fails. -/
theorem bootstrap_cases {next : AgentWorld} {error : Option String}
    (done : world.bootstrap launchd = (next, error)) :
    (next.job = (world.moment launchd 0).job ∧ next.attempts = world.attempts ++ [false] ∧
        error.isSome = true) ∨
      (world.moment launchd 0).job = .none ∧ next.job = .new := by
  unfold bootstrap at done
  dsimp only at done
  split at done
  · cases done
    exact .inl ⟨rfl, rfl, rfl⟩
  · rename_i free
    split at done
    · cases done
      exact .inr ⟨not_not.mp free, rfl⟩
    · cases done
      exact .inl ⟨rfl, rfl, rfl⟩

theorem bootstrap_refused {next : AgentWorld} {error : Option String}
    (done : world.bootstrap launchd = (next, error)) (other : next.job ≠ .new) :
    ∃ message, error = some message := by
  rcases bootstrap_cases done with ⟨-, -, failed⟩ | ⟨-, loaded⟩
  · exact Option.isSome_iff_exists.mp failed
  · exact absurd loaded other

/-- The one bootstrap of a restart whose wait was in vain succeeds only if it loads the new job,
and it fails if the old one is still there. -/
theorem bootstrap_inVain {next : AgentWorld} {error : Option String}
    (done : world.bootstrap launchd = (next, error)) :
    (error.map RestartError.didNotStop = none → next.job = .new) ∧
      (next.job = .old →
        ∃ message, error.map RestartError.didNotStop = some (.didNotStop message)) := by
  constructor
  · intro ended
    by_contra other
    obtain ⟨message, rfl⟩ := bootstrap_refused done other
    cases ended
  · intro old
    obtain ⟨message, rfl⟩ := bootstrap_refused done (by simp [old])
    exact ⟨message, rfl⟩

theorem bootstrap_stays {next : AgentWorld} {error : Option String}
    (done : world.bootstrap launchd = (next, error)) (old : world.job = .old)
    (never : ∀ call, launchd.leaves call = false) : next.job = .old := by
  rcases bootstrap_cases done with ⟨job, -, -⟩ | ⟨free, -⟩
  · rw [job, moment_stays never, old]
  · rw [moment_stays never, old] at free
    cases free

/-! ### The wait -/

theorem pollUntilGone_attempts (deadline : Nat) :
    (pollUntilGone launchd deadline world).1.attempts = world.attempts := by
  fun_induction pollUntilGone launchd deadline world with
  | case1 => rfl
  | case2 => rfl
  | case3 world loaded early inductionHypothesis => exact inductionHypothesis

/-- A wait that succeeds has seen the label free, and none brings an old job. -/
theorem pollUntilGone_job (deadline : Nat) :
    ((pollUntilGone launchd deadline world).2 = true →
        (pollUntilGone launchd deadline world).1.job = .none) ∧
      ((pollUntilGone launchd deadline world).1.job = .old → world.job = .old) := by
  fun_induction pollUntilGone launchd deadline world with
  | case1 world free =>
    exact ⟨fun _ => not_not.mp (of_decide_eq_false free), old_of_moment⟩
  | case2 world loaded late =>
    refine ⟨fun seen => ?_, fun old => old_of_moment (old_of_moment old)⟩
    cases seen
  | case3 world loaded early inductionHypothesis =>
    obtain ⟨free, before⟩ := inductionHypothesis
    exact ⟨free, fun old => old_of_moment (old_of_moment (old_of_moment (before old)))⟩

/-- An old job that never goes is waited for in vain. -/
theorem pollUntilGone_stays (never : ∀ call, launchd.leaves call = false) (deadline : Nat)
    (old : world.job = .old) :
    (pollUntilGone launchd deadline world).2 = false ∧
      (pollUntilGone launchd deadline world).1.job = .old := by
  fun_induction pollUntilGone launchd deadline world with
  | case1 world free =>
    have gone : (world.moment launchd 0).job = .none := not_not.mp (of_decide_eq_false free)
    rw [moment_stays never, old] at gone
    cases gone
  | case2 world loaded late =>
    refine ⟨rfl, ?_⟩
    rw [moment_stays never]
    exact (moment_stays never 0).trans old
  | case3 world loaded early inductionHypothesis =>
    refine inductionHypothesis ?_
    rw [sleep, moment_stays never, moment_stays never]
    exact (moment_stays never 0).trans old

/-! ### The retries -/

/-- A bootstrap without the old job, and the check behind it. -/
theorem bootstrap_gone {next : AgentWorld} {error : Option String} (gone : world.job ≠ .old)
    (done : world.bootstrap launchd = (next, error)) :
    next.job ≠ .old ∧ (error = none → next.job = .new) ∧
      (next.job ≠ .new → next.attempts = world.attempts ++ [false]) := by
  have still : (world.moment launchd 0).job ≠ .old := by rwa [moment_gone gone]
  rcases bootstrap_cases done with ⟨job, attempts, failed⟩ | ⟨-, loaded⟩
  · refine ⟨by rwa [job], fun none => ?_, fun _ => attempts⟩
    rw [none] at failed
    cases failed
  · exact ⟨by simp [loaded], fun _ => loaded, fun other => absurd loaded other⟩

/-- A wait before a try, if there is one, keeps the old job away and bootstraps nothing. -/
theorem sleep_gone (gone : world.job ≠ .old) (waits : Prop) [Decidable waits] (duration : Nat) :
    (if waits then world.sleep launchd duration else world).job ≠ .old ∧
      (if waits then world.sleep launchd duration else world).attempts = world.attempts := by
  split_ifs
  · exact ⟨by rwa [sleep, moment_gone gone], rfl⟩
  · exact ⟨gone, rfl⟩

/-- Once the old job is gone, the retries end with the new job loaded, or with an error after as
many bootstraps as there were tries, of which none loaded it. -/
theorem tryBootstrap_outcome (tries : Nat) (lastErr : Option RestartError)
    (gone : world.job ≠ .old) (last : tries = 0 → lastErr ≠ none) :
    ((tryBootstrap launchd tries world lastErr).2 = none ∧
        (tryBootstrap launchd tries world lastErr).1.job = .new) ∨
      (∃ error, (tryBootstrap launchd tries world lastErr).2 = some error) ∧
        (tryBootstrap launchd tries world lastErr).1.job ≠ .old ∧
        (tryBootstrap launchd tries world lastErr).1.attempts =
          world.attempts ++ List.replicate tries false := by
  induction tries generalizing world lastErr with
  | zero => exact .inr ⟨Option.ne_none_iff_exists'.mp (last rfl), gone, (List.append_nil _).symm⟩
  | succ tries inductionHypothesis =>
    rw [tryBootstrap]
    obtain ⟨waitedGone, waitedAttempts⟩ :=
      sleep_gone gone (tries + 1 < bootstrapTries) pollInterval
    generalize (if tries + 1 < bootstrapTries then world.sleep launchd pollInterval else world) =
      waited at waitedGone waitedAttempts ⊢
    split
    · rename_i next done
      exact .inl ⟨rfl, (bootstrap_gone waitedGone done).2.1 rfl⟩
    · rename_i next error done
      obtain ⟨nextGone, -, failed⟩ := bootstrap_gone waitedGone done
      have checked : (next.moment launchd 0).job = next.job := moment_gone nextGone 0
      split
      · rename_i after loaded
        obtain ⟨rfl, present⟩ := Prod.mk.inj loaded
        refine .inl ⟨rfl, ?_⟩
        rw [checked]
        rw [decide_eq_true_eq, checked] at present
        cases job : next.job with
        | none => exact absurd job present
        | old => exact absurd job nextGone
        | new => rfl
      · rename_i after free
        obtain ⟨rfl, absent⟩ := Prod.mk.inj free
        rw [decide_eq_false_iff_not, not_not, checked] at absent
        have attempts := failed (by simp [absent])
        rcases inductionHypothesis (some (.bootstrap error)) (by rwa [checked]) (by simp) with
          ended | ⟨reported, still, each⟩
        · exact .inl ended
        · refine .inr ⟨reported, still, each.trans ?_⟩
          rw [moment_attempts, attempts, waitedAttempts, List.append_assoc, List.replicate_succ,
            List.singleton_append]

/-! ### The outcome -/

theorem waitUntilGone_attempts :
    (world.waitUntilGone launchd).1.attempts = world.attempts := by
  rw [waitUntilGone]
  exact pollUntilGone_attempts _

theorem waitUntilGone_job :
    ((world.waitUntilGone launchd).2 = true → (world.waitUntilGone launchd).1.job = .none) ∧
      ((world.waitUntilGone launchd).1.job = .old → world.job = .old) := by
  rw [waitUntilGone]
  exact pollUntilGone_job _

theorem waitUntilGone_stays (never : ∀ call, launchd.leaves call = false)
    (old : world.job = .old) :
    (world.waitUntilGone launchd).2 = false ∧ (world.waitUntilGone launchd).1.job = .old := by
  rw [waitUntilGone]
  exact pollUntilGone_stays never _ old

/-- The wait of a restart saw the label free. -/
def SeenGone (launchd : Launchd) (world : AgentWorld) : Prop :=
  ((world.bootout launchd).waitUntilGone launchd).2 = true

end Calls

/-- A restart succeeds only with the new job loaded; it fails when the old job is still there in
the end, and so when it never goes away; and once the label was seen free, it fails only after
all the bootstraps, of which none loaded the new job. -/
theorem restartAgent_outcome (world : AgentWorld) :
    ((restartAgent launchd world).2 = none → (restartAgent launchd world).1.job = .new) ∧
    ((restartAgent launchd world).1.job = .old →
      ∃ error, (restartAgent launchd world).2 = some (.didNotStop error)) ∧
    (world.job = .old → (∀ call, launchd.leaves call = false) →
      ∃ error, (restartAgent launchd world).2 = some (.didNotStop error)) ∧
    (SeenGone launchd world → (∃ error, (restartAgent launchd world).2 = some error) →
      (restartAgent launchd world).1.attempts =
        world.attempts ++ List.replicate bootstrapTries false) := by
  obtain ⟨waited, same⟩ : ∃ waited, waited = (world.bootout launchd).waitUntilGone launchd :=
    ⟨_, rfl⟩
  have attempts : waited.1.attempts = world.attempts := by
    rw [same, waitUntilGone_attempts]
    rfl
  have free : waited.2 = true → waited.1.job = .none := by
    rw [same]
    exact waitUntilGone_job.1
  have stays : world.job = .old → (∀ call, launchd.leaves call = false) →
      waited.2 = false ∧ waited.1.job = .old := by
    rw [same]
    exact fun old never => waitUntilGone_stays never old
  rw [SeenGone, restartAgent, ← same]
  dsimp only
  split
  · rename_i inVain
    -- The one bootstrap decides.
    obtain ⟨tried, error, done⟩ : ∃ tried error, waited.1.bootstrap launchd = (tried, error) :=
      ⟨_, _, rfl⟩
    obtain ⟨loaded, refused⟩ := bootstrap_inVain done
    rw [done]
    refine ⟨loaded, refused, fun old never => ?_, fun seen => ?_⟩
    · exact refused (bootstrap_stays done (stays old never).2 never)
    · rw [inVain] at seen
      cases seen
  · rename_i seen
    rw [Bool.not_eq_false] at seen
    have gone : waited.1.job ≠ .old := by simp [free seen]
    have never : ¬ (world.job = .old ∧ ∀ call, launchd.leaves call = false) := by
      rintro ⟨old, never⟩
      exact gone (stays old never).2
    have outcome : _ ∧ (tryBootstrap launchd bootstrapTries waited.1 none).1.job = .new ∨ _ :=
      tryBootstrap_outcome bootstrapTries none gone (by decide)
    rcases outcome with ⟨ended, loaded⟩ | ⟨⟨error, failed⟩, still, each⟩
    · refine ⟨fun _ => loaded, fun old => ?_, fun old leaves => absurd ⟨old, leaves⟩ never, ?_⟩
      · rw [loaded] at old
        cases old
      · rintro - ⟨error, failed⟩
        rw [ended] at failed
        cases failed
    · refine ⟨fun ended => ?_, fun old => absurd old still,
        fun old leaves => absurd ⟨old, leaves⟩ never, fun _ _ => by rw [each, attempts]⟩
      rw [failed] at ended
      cases ended

end AgentWorld

end Multimux
