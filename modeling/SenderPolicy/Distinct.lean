/-! Removing repetitions from a list, first occurrences kept in their order. -/
namespace SenderPolicy

variable {α : Type} [DecidableEq α]

def distinct : List α → List α
  | [] => []
  | x :: xs => x :: (distinct xs).filter (· ≠ x)

def repeated (seen : List α) : List α → List α
  -- The elements that were seen before, in the order and number in which they come.
  | [] => []
  | x :: xs => if x ∈ seen then x :: repeated seen xs else repeated (x :: seen) xs

theorem mem_distinct {x : α} {xs : List α} : x ∈ distinct xs ↔ x ∈ xs := by
  induction xs with
  | nil => simp [distinct]
  | cons y ys ih =>
    by_cases h : x = y
    · simp [distinct, h]
    · simp [distinct, h, ih]

theorem nodup_distinct (xs : List α) : (distinct xs).Nodup := by
  induction xs with
  | nil => simp [distinct]
  | cons y ys ih =>
    refine List.nodup_cons.mpr ⟨?_, ih.filter _⟩
    simp

end SenderPolicy
