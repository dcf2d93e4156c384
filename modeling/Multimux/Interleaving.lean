/-
This file is the library of interleaved processes. Any number of processes run
over one shared world; each has a place in its program, and a move either lets
a new process arrive, lets one process take one step on the shared world, or
lets something happen to the world from outside. A property of every
interleaving is proved from an outline: what holds of the world, what each
process may rely on where it stands, and how any two processes stand apart.
The outline holds in every state of every run once each single move keeps it,
which is the non-interference rule.
-/

import Multimux.Runs

namespace Multimux

/-! ### Processes over a shared world -/

section Interleaving

variable {World Request Proc Choice Event : Type*}

/-- A machine: where a request starts, what one step of a process does to the shared world,
and what happens to the world from outside. A step is refused where the process cannot take
it; the choice resolves what the program leaves to its surroundings. -/
structure Machine (World Request Proc Choice Event : Type*) where
  enter : Request → Proc
  step : World → Proc → Choice → Option (World × Proc)
  outside : World → Event → Option World

/-- The state of a machine: the shared world and the processes that have arrived. -/
@[ext]
structure Pool (World Proc : Type*) where
  world : World
  procs : List Proc

/-- A move: a request arrives, one process steps, or an outside event occurs. -/
inductive Move (Request Choice Event : Type*)
  | arrive (request : Request)
  | advance (index : Nat) (choice : Choice)
  | occur (event : Event)

/-- What a move does. -/
def Machine.next (machine : Machine World Request Proc Choice Event) (pool : Pool World Proc) :
    Move Request Choice Event → Option (Pool World Proc)
  | .arrive request => some { pool with procs := pool.procs ++ [machine.enter request] }
  | .advance index choice =>
    match pool.procs[index]? with
    | none => none
    | some proc => (machine.step pool.world proc choice).map fun after =>
        { world := after.1, procs := pool.procs.set index after.2 }
  | .occur event => (machine.outside pool.world event).map fun world => { pool with world }

variable {machine : Machine World Request Proc Choice Event}

/-- A step of a process, taken apart. -/
theorem Machine.next_advance {pool final : Pool World Proc} {index : Nat} {choice : Choice}
    (taken : machine.next pool (.advance index choice) = some final) :
    ∃ proc world after, pool.procs[index]? = some proc ∧
      machine.step pool.world proc choice = some (world, after) ∧
      final = { world, procs := pool.procs.set index after } := by
  simp only [Machine.next] at taken
  split at taken
  · cases taken
  · rename_i proc present
    obtain ⟨⟨world, after⟩, stepped, rfl⟩ := Option.map_eq_some_iff.mp taken
    exact ⟨proc, world, after, present, stepped, rfl⟩

/-- An outside event, taken apart. -/
theorem Machine.next_occur {pool final : Pool World Proc} {event : Event}
    (taken : machine.next pool (.occur event) = some final) :
    ∃ world, machine.outside pool.world event = some world ∧ final = { pool with world } := by
  obtain ⟨world, occurred, rfl⟩ := Option.map_eq_some_iff.mp taken
  exact ⟨world, occurred, rfl⟩

/-! ### The non-interference rule -/

/-- A proof outline: what holds of the shared world, what a process relies on where it
stands, and what is so of any two different processes. -/
structure Outline (World Proc : Type*) where
  shared : World → Prop
  here : World → Proc → Prop
  apart : Proc → Proc → Prop

/-- The outline holds of a pool. -/
structure Outline.Holds (outline : Outline World Proc) (pool : Pool World Proc) : Prop where
  shared : outline.shared pool.world
  here : ∀ (index : Nat) (proc : Proc), pool.procs[index]? = some proc →
    outline.here pool.world proc
  apart : ∀ (first second : Nat) (one other : Proc), first ≠ second →
    pool.procs[first]? = some one →
    pool.procs[second]? = some other → outline.apart one other

/-- What a step of one process has to show: the world keeps its property, the process may
rely on what its new place asks for, and no other process is disturbed. -/
structure Outline.Kept (outline : Outline World Proc) (pool : Pool World Proc) (index : Nat)
    (world : World) (after : Proc) : Prop where
  shared : outline.shared world
  here : outline.here world after
  others : ∀ (other : Nat) (proc : Proc), other ≠ index → pool.procs[other]? = some proc →
    outline.here world proc ∧ outline.apart after proc ∧ outline.apart proc after

/-- A pool with no process satisfies an outline as soon as its world does. -/
theorem Outline.holds_empty (outline : Outline World Proc) {world : World}
    (shared : outline.shared world) : outline.Holds { world, procs := [] } where
  shared := shared
  here := by simp
  apart := by simp

/-- A step that keeps the outline leads to a pool of which it holds. -/
theorem Outline.Kept.holds {outline : Outline World Proc} {pool : Pool World Proc} {index : Nat}
    {world : World} {after : Proc} (before : outline.Holds pool)
    (kept : outline.Kept pool index world after) :
    outline.Holds { world, procs := pool.procs.set index after } where
  shared := kept.shared
  here := by
    intro place proc present
    rcases getElem?_set_cases present with ⟨-, rfl⟩ | ⟨different, old⟩
    · exact kept.here
    · exact (kept.others place proc different old).1
  apart := by
    intro first second one other different presentOne presentOther
    rcases getElem?_set_cases presentOne with ⟨rfl, rfl⟩ | ⟨firstOther, oldOne⟩ <;>
      rcases getElem?_set_cases presentOther with ⟨rfl, rfl⟩ | ⟨secondOther, oldOther⟩
    · exact absurd rfl different
    · exact (kept.others second other secondOther oldOther).2.1
    · exact (kept.others first one firstOther oldOne).2.2
    · exact before.apart first second one other different oldOne oldOther

/-- An arrival that finds its place in the outline leads to a pool of which the outline
holds. -/
theorem Outline.Holds.arrive {outline : Outline World Proc} {pool : Pool World Proc} {proc : Proc}
    (before : outline.Holds pool) (entered : outline.here pool.world proc)
    (stands : ∀ other ∈ pool.procs, outline.apart proc other ∧ outline.apart other proc) :
    outline.Holds { pool with procs := pool.procs ++ [proc] } where
  shared := before.shared
  here := by
    intro place other present
    rcases List.mem_append.mp (List.mem_of_getElem? present) with old | new
    · obtain ⟨earlier, found⟩ := List.getElem?_of_mem old
      exact before.here earlier other found
    · rw [List.mem_singleton] at new
      exact new ▸ entered
  apart := by
    intro first second one other different presentOne presentOther
    rcases getElem?_concat_cases presentOne with oldOne | ⟨firstLast, rfl⟩ <;>
      rcases getElem?_concat_cases presentOther with oldOther | ⟨secondLast, rfl⟩
    · exact before.apart first second one other different oldOne oldOther
    · exact (stands one (List.mem_of_getElem? oldOne)).2
    · exact (stands other (List.mem_of_getElem? oldOther)).1
    · exact absurd (firstLast.trans secondLast.symm) different

/-- The non-interference rule: an outline that holds at the start and that every permitted
arrival, step and outside event keeps holds at the end of every run. -/
theorem Outline.holds_of_run (outline : Outline World Proc)
    {allowed : Pool World Proc → Move Request Choice Event → Prop}
    (arriving : ∀ pool request, outline.Holds pool → allowed pool (.arrive request) →
      outline.here pool.world (machine.enter request) ∧ ∀ proc ∈ pool.procs,
        outline.apart (machine.enter request) proc ∧ outline.apart proc (machine.enter request))
    (advancing : ∀ pool (index : Nat) choice proc world after, outline.Holds pool →
      allowed pool (.advance index choice) → pool.procs[index]? = some proc →
      machine.step pool.world proc choice = some (world, after) →
      outline.Kept pool index world after)
    (occurring : ∀ pool event world, outline.Holds pool → allowed pool (.occur event) →
      machine.outside pool.world event = some world → outline.Holds { pool with world })
    {start final : Pool World Proc} {moves : List (Move Request Choice Event)}
    (initially : outline.Holds start) (run : Run machine.next allowed start moves final) :
    outline.Holds final := by
  refine run.invariant outline.Holds initially fun pool move next holds permitted taken => ?_
  cases move with
  | arrive request =>
    cases taken
    obtain ⟨entered, stands⟩ := arriving pool request holds permitted
    exact holds.arrive entered stands
  | advance index choice =>
    obtain ⟨proc, world, after, present, stepped, rfl⟩ := Machine.next_advance taken
    exact (advancing pool index choice proc world after holds permitted present stepped).holds holds
  | occur event =>
    obtain ⟨world, occurred, rfl⟩ := Machine.next_occur taken
    exact occurring pool event world holds permitted occurred

/-! ### The obligation rule -/

/-- Every pending item is owed by a process. -/
def Pool.Owed {Item : Type*} (pending : World → Item → Prop) (owes : World → Proc → Item → Prop)
    (pool : Pool World Proc) : Prop :=
  ∀ item, pending pool.world item → ∃ proc ∈ pool.procs, owes pool.world proc item

/-- A step keeps every pending item owed if its process owes what it makes pending and whatever
it owed before, and leaves what the others owe. -/
theorem Pool.Owed.advance {Item : Type*} {pending : World → Item → Prop}
    {owes : World → Proc → Item → Prop} {pool : Pool World Proc} (owed : pool.Owed pending owes)
    {index : Nat} {proc after : Proc} {world : World} (present : pool.procs[index]? = some proc)
    (stepped : ∀ item, pending world item → owes world after item ∨
      pending pool.world item ∧ ¬ owes pool.world proc item ∧
        ∀ other ∈ pool.procs, owes pool.world other item → owes world other item) :
    Pool.Owed pending owes { world, procs := pool.procs.set index after } := by
  intro item waits
  obtain ⟨bound, here⟩ := List.getElem?_eq_some_iff.mp present
  rcases stepped item waits with own | ⟨before, free, others⟩
  · exact ⟨after, List.mem_set bound after, own⟩
  · obtain ⟨other, member, takes⟩ := owed item before
    refine ⟨other, ?_, others other member takes⟩
    obtain ⟨place, inside, rfl⟩ := List.mem_iff_getElem.mp member
    have apart : index ≠ place := by
      rintro rfl
      rw [here] at takes
      exact free takes
    rw [← List.getElem_set_ne apart (by simpa using inside)]
    exact List.getElem_mem _

/-- The obligation rule: every pending item is owed by a process in every run, if that is so at
the start, every permitted step keeps it so and outside events make nothing pending. -/
theorem Machine.owed_of_run {Item : Type*} {pending : World → Item → Prop}
    {owes : World → Proc → Item → Prop}
    {allowed : Pool World Proc → Move Request Choice Event → Prop}
    {start final : Pool World Proc} {moves : List (Move Request Choice Event)}
    (initially : start.Owed pending owes)
    (advancing : ∀ pool (index : Nat) choice proc world after, pool.Owed pending owes →
      allowed pool (.advance index choice) → pool.procs[index]? = some proc →
      machine.step pool.world proc choice = some (world, after) → ∀ item, pending world item →
      owes world after item ∨ pending pool.world item ∧ ¬ owes pool.world proc item ∧
        ∀ other ∈ pool.procs, owes pool.world other item → owes world other item)
    (occurring : ∀ world event next, machine.outside world event = some next →
      ∀ item, pending next item → pending world item ∧
        ∀ proc, owes world proc item → owes next proc item)
    (run : Run machine.next allowed start moves final) : final.Owed pending owes := by
  refine run.invariant (Pool.Owed pending owes) initially fun pool move next owed permitted
    taken => ?_
  cases move with
  | arrive request =>
    cases taken
    intro item waits
    obtain ⟨proc, member, takes⟩ := owed item waits
    exact ⟨proc, List.mem_append_left _ member, takes⟩
  | advance index choice =>
    obtain ⟨proc, world, after, present, stepped, rfl⟩ := Machine.next_advance taken
    exact owed.advance present (advancing pool index choice proc world after owed permitted present
      stepped)
  | occur event =>
    obtain ⟨world, occurred, rfl⟩ := Machine.next_occur taken
    intro item waits
    obtain ⟨before, kept⟩ := occurring pool.world event world occurred item waits
    obtain ⟨proc, member, takes⟩ := owed item before
    exact ⟨proc, member, kept proc takes⟩

end Interleaving

end Multimux
