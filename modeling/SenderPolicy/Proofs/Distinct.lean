import SenderPolicy.Distinct

/-! Removing repetitions at the end is enough: doing so on the way as well, before each
element is replaced by others, leaves the same list. What is left stands in the order of the
first occurrences. -/
namespace SenderPolicy

variable {α β : Type} [DecidableEq α] [DecidableEq β]

/-- First occurrences among the selected members are the selected first occurrences. -/
theorem distinct_filter (p : α → Bool) (xs : List α) :
    distinct (xs.filter p) = (distinct xs).filter p := by
  induction xs with
  | nil => rfl
  | cons x xs ih =>
    by_cases hx : p x = true
    · rw [List.filter_cons_of_pos hx, distinct, ih, distinct, List.filter_cons_of_pos hx,
        List.filter_filter, List.filter_filter]
      simp only [Bool.and_comm]
    · -- No element equal to `x` passes the filter, so removing them first is no change.
      rw [List.filter_cons_of_neg hx, ih, distinct, List.filter_cons_of_neg hx, List.filter_filter]
      apply List.filter_congr
      intro y _
      by_cases hy : y = x
      · simp [hy, hx]
      · simp [hy]

/-- The second part keeps what the first does not have. -/
theorem distinct_append (xs ys : List α) :
    distinct (xs ++ ys) = distinct xs ++ (distinct ys).filter (· ∉ xs) := by
  induction xs with
  | nil =>
    have hall : (distinct ys).filter (· ∉ ([] : List α)) = distinct ys :=
      List.filter_eq_self.mpr fun y _ => by simp
    rw [List.nil_append, hall, distinct, List.nil_append]
  | cons x xs ih =>
    rw [List.cons_append, distinct, ih, List.filter_append, List.filter_filter, distinct,
      List.cons_append]
    congr 2
    apply List.filter_congr
    intro y _
    simp

theorem filter_flatMap_filter_ne (f : α → List β) (x : α) (xs : List α) :
    ((xs.filter (· ≠ x)).flatMap f).filter (· ∉ f x) = (xs.flatMap f).filter (· ∉ f x) := by
  induction xs with
  | nil => rfl
  | cons y ys ih =>
    rw [List.flatMap_cons, List.filter_append, ← ih]
    by_cases hy : y = x
    · have hnone : (f y).filter (· ∉ f x) = [] := List.filter_eq_nil_iff.mpr (by simp [hy])
      rw [hnone, List.filter_cons_of_neg (by simp [hy]), List.nil_append]
    · rw [List.filter_cons_of_pos (by simp [hy]), List.flatMap_cons, List.filter_append]

/-- Repetitions need not be removed before a map, as they are removed behind it. -/
theorem distinct_flatMap_distinct (f : α → List β) (xs : List α) :
    distinct ((distinct xs).flatMap f) = distinct (xs.flatMap f) := by
  induction xs with
  | nil => rfl
  | cons x xs ih =>
    -- What later occurrences of the first member give is there already, with or without them.
    rw [distinct, List.flatMap_cons, distinct_append, ← distinct_filter, filter_flatMap_filter_ne,
      distinct_filter, ih, ← distinct_append, ← List.flatMap_cons]

/-- Up to the place where an element is first found, the later ones are not found. -/
theorem pairwise_distinct (xs : List α) :
    (distinct xs).Pairwise fun y z => ∃ before after, xs = before ++ y :: after ∧
      z ∉ before ++ [y] := by
  induction xs with
  | nil => exact .nil
  | cons x xs ih =>
    refine List.pairwise_cons.mpr ⟨fun z hz => ⟨[], xs, rfl, ?_⟩, ?_⟩
    · have hne : z ≠ x := by simpa using (List.mem_filter.mp hz).2
      simpa using hne
    · refine (ih.filter _).imp_of_mem fun {y z} _ hz h => ?_
      obtain ⟨before, after, rfl, hbefore⟩ := h
      have hne : z ≠ x := by simpa using (List.mem_filter.mp hz).2
      exact ⟨x :: before, after, rfl, by simpa [hne] using hbefore⟩

/-- The order of the elements that the images come from. -/
theorem pairwise_distinct_filterMap {ι : Type} (f : ι → Option α) (is : List ι) :
    (distinct (is.filterMap f)).Pairwise fun y z => ∃ before i after, is = before ++ i :: after ∧
      f i = some y ∧ ∀ j ∈ before ++ [i], f j ≠ some z := by
  refine (pairwise_distinct (is.filterMap f)).imp fun {y z} h => ?_
  obtain ⟨before, after, happend, hz⟩ := h
  obtain ⟨front, back, rfl, rfl, hback⟩ := List.filterMap_eq_append_iff.mp happend
  -- The first image comes from some `i`, and what stands in between has no image.
  obtain ⟨skipped, i, rest, rfl, hskipped, hi, -⟩ := List.filterMap_eq_cons_iff.mp hback
  refine ⟨front ++ skipped, i, rest, by simp, hi, fun j hj hjz => hz ?_⟩
  simp only [List.mem_append, List.mem_singleton] at hj ⊢
  rcases hj with (hj | hj) | rfl
  · exact .inl (List.mem_filterMap.mpr ⟨j, hj, hjz⟩)
  · rw [hskipped j hj] at hjz
    cases hjz
  · exact .inr (Option.some.inj (hjz.symm.trans hi))

end SenderPolicy
