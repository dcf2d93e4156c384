/-
This file is the library of first occurrences. A fold over candidates keeps a
value where it first comes up and passes over gaps and over what it has kept.
What is kept is each value once, in the order of the first occurrences, and
more candidates only add values behind. The library also has the table that
later entries of a list write over earlier ones.
-/

import Mathlib.Data.List.Nodup
import Mathlib.Data.List.ReduceOption
import Mathlib.Data.List.Induction
import Mathlib.Logic.Function.Basic

namespace Multimux

/-! ### Values that are kept once -/

section FirstOccurrences

variable {Value : Type*} [DecidableEq Value]

/-- A value is kept when it is new. -/
def keepNew (kept : List Value) : Option Value → List Value
  | some value => if value ∈ kept then kept else kept ++ [value]
  | none => kept

/-- The values of the candidates, each where it first comes up. -/
def firstOccurrences (candidates : List (Option Value)) : List Value :=
  candidates.foldl keepNew []

theorem mem_keepNew {kept : List Value} {candidate : Option Value} {value : Value} :
    value ∈ keepNew kept candidate ↔ value ∈ kept ∨ candidate = some value := by
  cases candidate with
  | none => simp [keepNew]
  | some other =>
    rw [keepNew]
    split
    next listed =>
      refine ⟨Or.inl, fun either => either.elim id fun same => ?_⟩
      exact Option.some.inj same ▸ listed
    next => rw [List.mem_append, List.mem_singleton, Option.some.injEq, eq_comm]

theorem firstOccurrences_concat (candidates : List (Option Value)) (candidate : Option Value) :
    firstOccurrences (candidates ++ [candidate]) =
      keepNew (firstOccurrences candidates) candidate :=
  List.foldl_concat ..

@[simp]
theorem mem_firstOccurrences {candidates : List (Option Value)} {value : Value} :
    value ∈ firstOccurrences candidates ↔ some value ∈ candidates := by
  induction candidates using List.reverseRecOn with
  | nil => simp [firstOccurrences]
  | append_singleton candidates candidate inductionHypothesis =>
    rw [firstOccurrences_concat, mem_keepNew, inductionHypothesis, List.mem_append,
      List.mem_singleton, eq_comm (a := candidate)]

/-- The values that are kept come in the order of their first occurrences. -/
theorem firstOccurrences_pairwise (candidates : List (Option Value)) :
    (firstOccurrences candidates).Pairwise fun one other =>
      candidates.idxOf (some one) < candidates.idxOf (some other) := by
  induction candidates using List.reverseRecOn with
  | nil => exact List.Pairwise.nil
  | append_singleton candidates candidate inductionHypothesis =>
    have earlier : ∀ value ∈ firstOccurrences candidates,
        (candidates ++ [candidate]).idxOf (some value) = candidates.idxOf (some value) :=
      fun value kept => List.idxOf_append_of_mem (mem_firstOccurrences.mp kept)
    have front : (firstOccurrences candidates).Pairwise fun one other =>
        (candidates ++ [candidate]).idxOf (some one) <
          (candidates ++ [candidate]).idxOf (some other) := by
      refine inductionHypothesis.imp_of_mem fun one other less => ?_
      rw [earlier _ one, earlier _ other]
      exact less
    rw [firstOccurrences_concat]
    cases candidate with
    | none => exact front
    | some value =>
      rw [keepNew]
      split
      next => exact front
      next new =>
        refine List.pairwise_append.mpr ⟨front, List.pairwise_singleton _ _, ?_⟩
        intro kept listed last here
        obtain rfl := List.mem_singleton.mp here
        rw [earlier kept listed, List.idxOf_append_of_notMem (mt mem_firstOccurrences.mpr new)]
        exact Nat.lt_add_right _ (List.idxOf_lt_length_iff.mpr (mem_firstOccurrences.mp listed))

theorem firstOccurrences_nodup (candidates : List (Option Value)) :
    (firstOccurrences candidates).Nodup :=
  (firstOccurrences_pairwise candidates).imp fun less same =>
    absurd (congrArg (fun value => candidates.idxOf (some value)) same) (Nat.ne_of_lt less)

/-- More candidates add what they have first and the earlier ones have not. -/
theorem firstOccurrences_append (front back : List (Option Value)) :
    firstOccurrences (front ++ back) = firstOccurrences front ++
      (firstOccurrences back).filter fun value => some value ∉ front := by
  induction back using List.reverseRecOn with
  | nil => simp [firstOccurrences]
  | append_singleton back candidate inductionHypothesis =>
    rw [← List.append_assoc, firstOccurrences_concat, firstOccurrences_concat,
      inductionHypothesis]
    cases candidate with
    | none => rfl
    | some value =>
      by_cases before : some value ∈ front
      · rw [keepNew, if_pos (List.mem_append_left _ (mem_firstOccurrences.mpr before)), keepNew]
        split
        next => rfl
        next => rw [List.filter_append]; simp [before]
      · by_cases listed : some value ∈ back
        · rw [keepNew, if_pos, keepNew, if_pos (mem_firstOccurrences.mpr listed)]
          simp [before, listed]
        · rw [keepNew, if_neg, keepNew, if_neg (mt mem_firstOccurrences.mp listed),
            List.filter_append, List.append_assoc]
          · simp [before]
          · simp [before, listed]

/-- Candidates that name no value twice are all kept. -/
theorem firstOccurrences_of_nodup {candidates : List (Option Value)}
    (distinct : candidates.reduceOption.Nodup) :
    firstOccurrences candidates = candidates.reduceOption := by
  induction candidates using List.reverseRecOn with
  | nil => rfl
  | append_singleton candidates candidate inductionHypothesis =>
    rw [List.reduceOption_append] at distinct ⊢
    rw [firstOccurrences_concat, inductionHypothesis distinct.of_append_left]
    cases candidate with
    | none => simp [keepNew]
    | some value =>
      have new : value ∉ candidates.reduceOption := by
        have apart := List.disjoint_of_nodup_append distinct
        exact fun listed => apart listed (by simp)
      rw [keepNew, if_neg new]
      rfl

end FirstOccurrences

/-! ### Tables -/

section Tables

variable {Key Value : Type*} [DecidableEq Key]

/-- The table of some entries under their keys. -/
def tableOf (key : Value → Key) (entries : List Value) : Key → Option Value :=
  entries.foldl (fun table entry => Function.update table (key entry) (some entry)) fun _ => none

theorem tableOf_eq_some {key : Value → Key} {entries : List Value}
    (distinct : (entries.map key).Nodup) {name : Key} {entry : Value} :
    tableOf key entries name = some entry ↔ entry ∈ entries ∧ key entry = name := by
  induction entries using List.reverseRecOn with
  | nil => simp [tableOf]
  | append_singleton entries last inductionHypothesis =>
    rw [List.map_append] at distinct
    have earlier := inductionHypothesis distinct.of_append_left
    have written : tableOf key (entries ++ [last]) =
        Function.update (tableOf key entries) (key last) (some last) :=
      List.foldl_concat ..
    have new : ∀ entry ∈ entries, key entry ≠ key last := by
      intro entry listed same
      exact List.disjoint_of_nodup_append distinct (List.mem_map_of_mem listed) (by simp [same])
    rw [written, List.mem_append, List.mem_singleton]
    by_cases here : name = key last
    · rw [here, Function.update_self, Option.some.injEq]
      constructor
      · rintro rfl
        exact ⟨Or.inr rfl, rfl⟩
      · rintro ⟨listed | same, named⟩
        · exact absurd named (new entry listed)
        · exact same.symm
    · rw [Function.update_of_ne here, earlier]
      constructor
      · exact fun ⟨listed, named⟩ => ⟨Or.inl listed, named⟩
      · rintro ⟨listed | rfl, named⟩
        · exact ⟨listed, named⟩
        · exact absurd named.symm here

end Tables

end Multimux
