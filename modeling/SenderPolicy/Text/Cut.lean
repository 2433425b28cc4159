/-! Cutting a text in two at a separator: the first, the last, or the first doubled
one. What the cut returns, joined by the separator, is the text. -/
namespace SenderPolicy.Text

def cutFirst (sep : Char) : List Char → Option (List Char × List Char)
  | [] => none
  | c :: cs =>
    if c = sep then some ([], cs)
    else (cutFirst sep cs).map fun (before, after) => (c :: before, after)

def cutLast (sep : Char) : List Char → Option (List Char × List Char)
  | [] => none
  | c :: cs =>
    match cutLast sep cs with
    | some (before, after) => some (c :: before, after)
    | none => if c = sep then some ([], cs) else none

def cutDouble (sep : Char) : List Char → Option (List Char × List Char)
  | c :: d :: cs =>
    if c = sep ∧ d = sep then some ([], cs)
    else (cutDouble sep (d :: cs)).map fun (before, after) => (c :: before, after)
  | _ => none

def dropFinal (c : Char) (s : List Char) : List Char :=
  if s.getLast? = some c then s.dropLast else s

theorem cutFirst_append {sep : Char} {a : List Char} (ha : sep ∉ a) (b : List Char) :
    cutFirst sep (a ++ sep :: b) = some (a, b) := by
  induction a with
  | nil => simp [cutFirst]
  | cons c a ih =>
    have hc : c ≠ sep := fun h => ha (h ▸ List.mem_cons_self)
    simp [cutFirst, hc, ih fun h => ha (List.mem_cons_of_mem c h)]

theorem cutFirst_eq_none_iff {sep : Char} {s : List Char} : cutFirst sep s = none ↔ sep ∉ s := by
  induction s with
  | nil => simp [cutFirst]
  | cons c s ih =>
    by_cases hc : c = sep
    · simp [cutFirst, hc]
    · simp [cutFirst, hc, ih, Ne.symm hc]

/-- A cut at the first separator leaves none in front. -/
theorem eq_append_of_cutFirst {sep : Char} {s a b : List Char} (h : cutFirst sep s = some (a, b)) :
    s = a ++ sep :: b ∧ sep ∉ a := by
  induction s generalizing a with
  | nil => simp [cutFirst] at h
  | cons c s ih =>
    by_cases hc : c = sep
    · obtain ⟨rfl, rfl⟩ : [] = a ∧ s = b := by simpa [cutFirst, hc] using h
      exact ⟨by rw [hc, List.nil_append], List.not_mem_nil⟩
    · simp only [cutFirst, if_neg hc, Option.map_eq_some_iff, Prod.mk.injEq, Prod.exists] at h
      obtain ⟨a', b', h', rfl, rfl⟩ := h
      obtain ⟨rfl, ha⟩ := ih h'
      exact ⟨rfl, by simp [ha, Ne.symm hc]⟩

/-- What is left after the first separator is shorter than the text. -/
theorem length_lt_of_cutFirst {sep : Char} {s a b : List Char} (h : cutFirst sep s = some (a, b)) :
    b.length < s.length := by
  rw [(eq_append_of_cutFirst h).1]
  simp only [List.length_append, List.length_cons]
  omega

theorem cutLast_eq_none_iff {sep : Char} {s : List Char} : cutLast sep s = none ↔ sep ∉ s := by
  induction s with
  | nil => simp [cutLast]
  | cons c s ih =>
    cases hs : cutLast sep s with
    | some p => simpa [cutLast, hs] using fun _ => by simpa [hs] using ih
    | none =>
      have hmem := ih.mp hs
      by_cases hc : c = sep
      · simp [cutLast, hs, hc]
      · simp [cutLast, hs, hc, hmem, Ne.symm hc]

theorem cutLast_append {sep : Char} (a : List Char) {b : List Char} (hb : sep ∉ b) :
    cutLast sep (a ++ sep :: b) = some (a, b) := by
  induction a with
  | nil => simp [cutLast, cutLast_eq_none_iff.mpr hb]
  | cons c a ih => simp [cutLast, ih]

/-- There is one place behind the last separator. -/
theorem eq_of_append_eq {sep : Char} {a b a' b' : List Char} (h : a ++ sep :: b = a' ++ sep :: b')
    (hb : sep ∉ b) (hb' : sep ∉ b') : a = a' ∧ b = b' := by
  have hcut := cutLast_append a hb
  rw [h, cutLast_append a' hb', Option.some.injEq, Prod.mk.injEq] at hcut
  exact ⟨hcut.1.symm, hcut.2.symm⟩

/-- A cut at the last separator leaves none behind. -/
theorem eq_append_of_cutLast {sep : Char} {s a b : List Char} (h : cutLast sep s = some (a, b)) :
    s = a ++ sep :: b ∧ sep ∉ b := by
  induction s generalizing a b with
  | nil => simp [cutLast] at h
  | cons c s ih =>
    cases hs : cutLast sep s with
    | some p =>
      obtain ⟨rfl, rfl⟩ : c :: p.1 = a ∧ p.2 = b := by simpa [cutLast, hs] using h
      obtain ⟨hp, hb⟩ := ih hs
      exact ⟨by rw [List.cons_append, ← hp], hb⟩
    | none =>
      by_cases hc : c = sep
      · obtain ⟨rfl, rfl⟩ : [] = a ∧ s = b := by simpa [cutLast, hs, hc] using h
        exact ⟨by rw [hc, List.nil_append], cutLast_eq_none_iff.mp hs⟩
      · simp [cutLast, hs, hc] at h

end SenderPolicy.Text
