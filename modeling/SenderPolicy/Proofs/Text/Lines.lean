import SenderPolicy.Text.Blank

/-! Lines of text. Lines that are printed can be told apart again if no line holds a break. -/
namespace SenderPolicy.Text

def isLineBreak (c : Char) : Bool :=
  -- The characters that end a line, the separators of lines and paragraphs included.
  let n := c.toNat
  (10 ≤ n && n ≤ 13) || n == 0x85 || n == 0x2028 || n == 0x2029

/-- Each of them is a blank. -/
theorem isLineBreak_eq_false {c : Char} (h : isBlank c = false) : isLineBreak c = false := by
  rw [Bool.eq_false_iff] at h ⊢
  simp only [isLineBreak, isBlank, ne_eq, Bool.or_eq_true, Bool.and_eq_true, decide_eq_true_eq,
    beq_iff_eq] at h ⊢
  omega

def IsOneLine (s : String) : Prop :=
  ∀ c ∈ s.toList, isLineBreak c = false

instance (s : String) : Decidable (IsOneLine s) :=
  decidable_of_iff (s.toList.all (!isLineBreak ·) = true) (by simp [IsOneLine])

theorem IsOneLine.append {s t : String} (hs : IsOneLine s) (ht : IsOneLine t) :
    IsOneLine (s ++ t) := by
  rw [IsOneLine, String.toList_append]
  exact List.forall_mem_append.mpr ⟨hs, ht⟩

def unlines (lines : List String) : String :=
  -- The text of lines, each with its line feed.
  String.join (lines.map (· ++ "\n"))

theorem unlines_singleton (line : String) : unlines [line] = line ++ "\n" := by
  rw [unlines, List.map_singleton, String.join_cons, String.join_nil, String.append_empty]

theorem toList_unlines_cons (line : String) (lines : List String) :
    (unlines (line :: lines)).toList = line.toList ++ '\n' :: (unlines lines).toList := by
  rw [unlines, List.map_cons, String.join_cons, String.toList_append, String.toList_append,
    List.append_assoc]
  rfl

/-- Lines are told apart again if no line holds a break. -/
theorem splitOnP_unlines {lines : List String} (h : ∀ line ∈ lines, IsOneLine line) :
    (unlines lines).toList.splitOnP isLineBreak = lines.map String.toList ++ [[]] := by
  induction lines with
  | nil => rfl
  | cons line lines ih =>
    obtain ⟨hline, hlines⟩ := List.forall_mem_cons.mp h
    rw [toList_unlines_cons, List.splitOnP_append_cons _ _ (by decide), ih hlines,
      List.splitOnP_eq_singleton hline]
    rfl

end SenderPolicy.Text
