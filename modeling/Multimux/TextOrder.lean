/-
This file is the library of the order of texts. Texts compare by the codes of
their characters, the first difference deciding, which is how a sort of byte
strings and a database column compare ASCII texts. The order is total, so a
sorted list depends only on what it holds; a list whose order decides between
any two of its items is the sorting of every permutation of it.
-/

import Mathlib.Data.List.Pairwise

namespace Multimux

/-! ### The order -/

/-- The first text sorts before the other, or is it. -/
def sortsBefore : List Char → List Char → Bool
  | [], _ => true
  | _ :: _, [] => false
  | first :: rest, other :: others =>
    if first = other then sortsBefore rest others else first.toNat < other.toNat

theorem sortsBefore_cons {first other : Char} {rest others : List Char} :
    sortsBefore (first :: rest) (other :: others) = true ↔
      first.toNat < other.toNat ∨ first = other ∧ sortsBefore rest others = true := by
  rw [sortsBefore]
  split
  · rename_i same
    subst same
    simp
  · rename_i different
    simp [different]

theorem sortsBefore_total (one other : List Char) :
    (sortsBefore one other || sortsBefore other one) = true := by
  induction one generalizing other with
  | nil => rfl
  | cons first rest inductionHypothesis =>
    cases other with
    | nil => rfl
    | cons next others =>
      rw [Bool.or_eq_true, sortsBefore_cons, sortsBefore_cons]
      rcases Nat.lt_trichotomy first.toNat next.toNat with low | same | high
      · exact .inl (.inl low)
      · have same := Char.toNat_inj.mp same
        rcases Bool.or_eq_true_iff.mp (inductionHypothesis others) with before | after
        · exact .inl (.inr ⟨same, before⟩)
        · exact .inr (.inr ⟨same.symm, after⟩)
      · exact .inr (.inl high)

theorem sortsBefore_trans {one other last : List Char} (first : sortsBefore one other = true)
    (second : sortsBefore other last = true) : sortsBefore one last = true := by
  induction one generalizing other last with
  | nil => rfl
  | cons head rest inductionHypothesis =>
    cases other with
    | nil => cases first
    | cons next others =>
      cases last with
      | nil => cases second
      | cons final lasts =>
        rw [sortsBefore_cons] at first second ⊢
        rcases first with low | ⟨rfl, first⟩
        · rcases second with high | ⟨rfl, -⟩
          · exact .inl (Nat.lt_trans low high)
          · exact .inl low
        · rcases second with high | ⟨rfl, second⟩
          · exact .inl high
          · exact .inr ⟨rfl, inductionHypothesis first second⟩

theorem sortsBefore_antisymm {one other : List Char} (first : sortsBefore one other = true)
    (second : sortsBefore other one = true) : one = other := by
  induction one generalizing other with
  | nil =>
    cases other with
    | nil => rfl
    | cons => cases second
  | cons head rest inductionHypothesis =>
    cases other with
    | nil => cases first
    | cons next others =>
      rw [sortsBefore_cons] at first second
      rcases first with low | ⟨rfl, first⟩
      · rcases second with high | ⟨rfl, -⟩
        · exact absurd low (Nat.lt_asymm high)
        · exact absurd low (Nat.lt_irrefl _)
      · rcases second with high | ⟨-, second⟩
        · exact absurd high (Nat.lt_irrefl _)
        · rw [inductionHypothesis first second]

theorem sortsBefore_refl (text : List Char) : sortsBefore text text = true := by
  simpa using sortsBefore_total text text

/-- Behind texts of one length the rest decides where these are equal. -/
theorem sortsBefore_append {one other rest others : List Char} (same : one.length = other.length) :
    sortsBefore (one ++ rest) (other ++ others) = true ↔
      sortsBefore other one = false ∨ one = other ∧ sortsBefore rest others = true := by
  induction one generalizing other with
  | nil =>
    obtain rfl := List.length_eq_zero_iff.mp same.symm
    simp [sortsBefore]
  | cons first ones inductionHypothesis =>
    cases other with
    | nil => cases same
    | cons next tail =>
      have shorter := inductionHypothesis (Nat.succ.inj same)
      rw [List.cons_append, List.cons_append, sortsBefore_cons, shorter,
        ← Bool.not_eq_true (sortsBefore (next :: tail) (first :: ones)), sortsBefore_cons,
        ← Bool.not_eq_true]
      constructor
      · rintro (low | ⟨rfl, behind | ⟨rfl, ends⟩⟩)
        · refine .inl (not_or.mpr ⟨Nat.lt_asymm low, ?_⟩)
          rintro ⟨rfl, -⟩
          exact Nat.lt_irrefl _ low
        · exact .inl (not_or.mpr ⟨Nat.lt_irrefl _, fun tied => behind tied.2⟩)
        · exact .inr ⟨rfl, ends⟩
      · rintro (strict | ⟨equal, ends⟩)
        · obtain ⟨notLow, notTied⟩ := not_or.mp strict
          rcases Nat.lt_or_eq_of_le (Nat.le_of_not_lt notLow) with low | tied
          · exact .inl low
          · obtain rfl := Char.toNat_inj.mp tied
            exact .inr ⟨rfl, .inl fun behind => notTied ⟨rfl, behind⟩⟩
        · obtain ⟨rfl, rfl⟩ := List.cons.inj equal
          exact .inr ⟨rfl, .inr ⟨rfl, ends⟩⟩

/-! ### Sorting -/

/-- A list sorts to the permutation of it that is strictly sorted already. -/
theorem mergeSort_eq_of_strict {Item : Type*} {before : Item → Item → Bool}
    (transitive : ∀ one other last, before one other = true → before other last = true →
      before one last = true)
    (total : ∀ one other, (before one other || before other one) = true)
    {items sorted : List Item} (same : sorted.Perm items)
    (strict : sorted.Pairwise fun one other =>
      before one other = true ∧ before other one = false) :
    items.mergeSort before = sorted := by
  have tied : ∀ one ∈ sorted, ∀ other ∈ sorted, before one other = true →
      before other one = true → one = other := by
    have symmetric : Std.Symm fun one other => before one other = true →
        before other one = true → one = other :=
      ⟨fun one other equal first second => (equal second first).symm⟩
    refine List.Pairwise.forall_of_forall (fun _ _ _ _ => rfl) ?_
    refine strict.imp fun {one other} apart _ back => ?_
    rw [apart.2] at back
    cases back
  refine List.Perm.eq_of_pairwise ?_ (List.pairwise_mergeSort transitive total items)
    (strict.imp And.left) ((List.mergeSort_perm items _).trans same.symm)
  intro one other member present
  exact tied one (same.mem_iff.mpr (List.mem_mergeSort.mp member)) other present

/-- A stable sort leaves the items of the last rank behind the others and as they stood. -/
theorem mergeSort_eq_filter_append {Item : Type*} {before : Item → Item → Bool}
    {last : Item → Bool}
    (transitive : ∀ one other last, before one other = true → before other last = true →
      before one last = true)
    (total : ∀ one other, (before one other || before other one) = true)
    (behind : ∀ one other, last other = true → before one other = true)
    (only : ∀ one other, last one = true → before one other = true → last other = true)
    (items : List Item) :
    items.mergeSort before =
      (items.mergeSort before).filter (fun item => !last item) ++ items.filter last := by
  have parts : ∀ sorted : List Item, sorted.Pairwise (fun one other => before one other = true) →
      sorted = sorted.filter (fun item => !last item) ++ sorted.filter last := by
    intro sorted ordered
    induction sorted with
    | nil => rfl
    | cons item rest inductionHypothesis =>
      obtain ⟨first, later⟩ := List.pairwise_cons.mp ordered
      cases ranked : last item with
      | false =>
        rw [List.filter_cons_of_pos (by simp [ranked]), List.filter_cons_of_neg (by simp [ranked]),
          List.cons_append, ← inductionHypothesis later]
      | true =>
        have all : ∀ other ∈ rest, last other = true := fun other member =>
          only item other ranked (first other member)
        rw [List.filter_cons_of_neg (by simp [ranked]), List.filter_cons_of_pos ranked,
          List.filter_eq_self.mpr all, List.filter_eq_nil_iff.mpr (by simpa using all),
          List.nil_append]
  have sorted := List.pairwise_mergeSort transitive total items
  have stable : items.filter last = (items.mergeSort before).filter last := by
    have tied : (items.filter last).Pairwise fun one other => before one other = true :=
      List.pairwise_of_forall_mem_list fun one _ other member =>
        behind one other (List.mem_filter.mp member).2
    have kept := (List.sublist_mergeSort transitive total tied List.filter_sublist).filter last
    rw [List.filter_filter, List.filter_congr fun item _ => Bool.and_self (last item)] at kept
    exact kept.eq_of_length ((List.mergeSort_perm items before).symm.filter last).length_eq
  rw [stable]
  exact parts _ sorted

/-- Sorting forgets the order. -/
theorem mergeSort_sortsBefore_eq {names others : List (List Char)} (same : names.Perm others) :
    names.mergeSort sortsBefore = others.mergeSort sortsBefore := by
  have transitive : ∀ one other last, sortsBefore one other = true →
      sortsBefore other last = true → sortsBefore one last = true :=
    fun _ _ _ => sortsBefore_trans
  have sorted := List.pairwise_mergeSort transitive sortsBefore_total
  refine List.Perm.eq_of_pairwise (fun one other _ _ => sortsBefore_antisymm) (sorted names)
    (sorted others) ?_
  exact ((List.mergeSort_perm names _).trans same).trans (List.mergeSort_perm others _).symm

end Multimux
