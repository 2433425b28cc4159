import SenderPolicy.HostName
import SenderPolicy.Proofs.Text.Ascii
import SenderPolicy.Proofs.Text.Separators

/-! Canonical host names: the canonical form of a full name is full, is its own canonical
form, and consists of graphic characters without slashes and colons. -/
namespace SenderPolicy

namespace Text

theorem dropFinal_eq_self {c : Char} {s : List Char} (h : s.getLast? ≠ some c) :
    dropFinal c s = s :=
  if_neg h

theorem dropFinal_append {c : Char} (a : List Char) {b : List Char} (h : b ≠ []) :
    dropFinal c (a ++ b) = a ++ dropFinal c b := by
  rw [dropFinal, dropFinal, List.getLast?_append_of_ne_nil _ h]
  split
  · exact List.dropLast_append_of_ne_nil h
  · rfl

theorem mem_of_mem_dropFinal {c d : Char} {s : List Char} (h : d ∈ dropFinal c s) : d ∈ s := by
  rw [dropFinal] at h
  split at h
  · exact (List.dropLast_sublist s).subset h
  · exact h

theorem eq_or_mem_dropFinal {c d : Char} {s : List Char} (h : d ∈ s) :
    d = c ∨ d ∈ dropFinal c s := by
  rw [dropFinal]
  split
  next hlast =>
    obtain ⟨t, rfl⟩ := List.getLast?_eq_some_iff.mp hlast
    rcases List.mem_append.mp h with h | h
    · exact .inr (by simpa using h)
    · exact .inl (by simpa using h)
  next => exact .inr h

theorem lower_dropFinal {c : Char} (hc : c.isAlpha = false) (s : List Char) :
    lower (dropFinal c s) = dropFinal c (lower s) := by
  have hlast := getLast?_lower_iff hc s
  by_cases h : s.getLast? = some c
  · rw [dropFinal, dropFinal, if_pos h, if_pos (hlast.mpr h), lower, lower, List.map_dropLast]
  · rw [dropFinal, dropFinal, if_neg h, if_neg fun h' => h (hlast.mp h')]

theorem lower_splitOn {c : Char} (hc : c.isAlpha = false) (s : List Char) :
    (lower s).splitOn c = (s.splitOn c).map lower := by
  induction s with
  | nil => rfl
  | cons d s ih =>
    obtain ⟨part, parts, hparts⟩ := List.exists_cons_of_ne_nil (List.splitOn_ne_nil c s)
    have hlower : lower (d :: s) = d.toLower :: lower s := rfl
    rw [hlower, List.splitOn_cons_eq_if_modifyHead, List.splitOn_cons_eq_if_modifyHead, ih, hparts]
    simp only [beq_iff_eq, toLower_eq_iff hc]
    split <;> rfl

end Text

namespace HostName

def IsNameChar (c : Char) : Prop :=
  -- The characters of host names: those of labels, and the dot between labels.
  c.isAlphanum = true ∨ c = '-' ∨ c = '_' ∨ c = '.'

theorem IsNameChar.isGraphic {c : Char} (h : IsNameChar c) : Text.IsGraphic c := by
  rcases h with h | rfl | rfl | rfl
  · exact Text.isGraphic_of_isAlphanum h
  · decide
  · decide
  · decide

theorem IsNameChar.ne_slash {c : Char} (h : IsNameChar c) : c ≠ '/' := by
  rintro rfl
  exact absurd h (by simp [IsNameChar])

theorem eq_or_eq_of_mem_label {label : List Char} {c : Char} (h : c ∈ label) :
    c = '_' ∨ c ∈ labelBody label := by
  unfold labelBody
  split
  next body =>
    rcases List.mem_cons.mp h with h | h
    · exact .inl h
    · exact .inr h
  next => exact .inr h

theorem isNameChar_of_mem_label {label : List Char} (hl : isLabel label = true) {c : Char}
    (h : c ∈ label) : IsNameChar c ∧ c ≠ '.' := by
  simp only [isLabel, Bool.and_eq_true, List.all_eq_true, Bool.or_eq_true, beq_iff_eq] at hl
  rcases eq_or_eq_of_mem_label h with rfl | hbody
  · exact ⟨.inr (.inr (.inl rfl)), by decide⟩
  · rcases hl.2 c hbody with halnum | rfl
    · exact ⟨.inl halnum, by rintro rfl; exact absurd halnum (by decide)⟩
    · exact ⟨.inr (.inl rfl), by decide⟩

theorem label_ne_nil {label : List Char} (hl : isLabel label = true) : label ≠ [] := by
  rintro rfl
  exact absurd hl (by decide)

/-- Labels hold no dot and are not empty, so a name can be cut into them again. -/
theorem label_separable {name : List Char} (h : isLabelList name = true) :
    ∀ label ∈ labels name, label ≠ [] ∧ '.' ∉ label := by
  intro label hmem
  rw [isLabelList, Bool.and_eq_true] at h
  have hl : isLabel label = true := List.all_eq_true.mp h.2 label hmem
  exact ⟨label_ne_nil hl, fun hdot => (isNameChar_of_mem_label hl hdot).2 rfl⟩

/-- Labels with dots between them are the name without its final dot. -/
theorem intercalate_labels (name : List Char) :
    ['.'].intercalate (labels name) = Text.dropFinal '.' name :=
  List.intercalate_splitOn '.'

/-- Two final dots would leave an empty label, so one is the most there is. -/
theorem getLast?_dropFinal_ne {name : List Char} (h : isLabelList name = true) :
    (Text.dropFinal '.' name).getLast? ≠ some '.' := by
  -- No label is empty, so in front of the dot there is no second one.
  rw [← intercalate_labels]
  exact Text.getLast?_intercalate_ne (label_separable h)

/-- Dropping the final dot again changes nothing. -/
theorem dropFinal_dropFinal {name : List Char} (h : isLabelList name = true) :
    Text.dropFinal '.' (Text.dropFinal '.' name) = Text.dropFinal '.' name :=
  Text.dropFinal_eq_self (getLast?_dropFinal_ne h)

theorem isNameChar_of_mem {name : List Char} (h : isLabelList name = true) {c : Char}
    (hc : c ∈ name) : IsNameChar c := by
  rcases Text.eq_or_mem_dropFinal (c := '.') hc with rfl | hc
  · exact .inr (.inr (.inr rfl))
  · rw [← intercalate_labels] at hc
    rcases Text.mem_intercalate hc with rfl | ⟨label, hlabel, hc⟩
    · exact .inr (.inr (.inr rfl))
    · rw [isLabelList, Bool.and_eq_true] at h
      exact (isNameChar_of_mem_label (List.all_eq_true.mp h.2 label hlabel) hc).1

theorem ne_nil_of_isLabelList {name : List Char} (h : isLabelList name = true) : name ≠ [] := by
  rintro rfl
  exact absurd h (by decide)

theorem labelBody_lower (label : List Char) :
    labelBody (Text.lower label) = Text.lower (labelBody label) := by
  cases label with
  | nil => rfl
  | cons c body =>
    have hlower : Text.lower (c :: body) = c.toLower :: Text.lower body := rfl
    by_cases hc : c = '_'
    · subst hc
      rfl
    · have hc' : c.toLower ≠ '_' := fun h => hc ((Text.toLower_eq_iff (by decide)).mp h)
      rw [hlower]
      simp [labelBody, hc, hc', hlower]

theorem isAlphanum_or_hyphen_toLower (c : Char) :
    (c.toLower.isAlphanum || c.toLower == '-') = (c.isAlphanum || c == '-') := by
  rw [Text.isAlphanum_toLower, Bool.eq_iff_iff]
  simp [Text.toLower_eq_iff]

theorem isLabel_lower (label : List Char) : isLabel (Text.lower label) = isLabel label := by
  have hempty : (Text.lower (labelBody label)).isEmpty = (labelBody label).isEmpty := by
    simp [Text.lower]
  have hall : ((Text.lower (labelBody label)).all fun c => c.isAlphanum || c == '-') =
      (labelBody label).all fun c => c.isAlphanum || c == '-' := by
    simp only [Text.lower, List.all_map, Function.comp_def, isAlphanum_or_hyphen_toLower]
  rw [Bool.eq_iff_iff]
  simp only [isLabel, labelBody_lower, Text.octets_lower, hempty, hall, Bool.and_eq_true,
    bne_iff_ne, ne_eq, Text.head?_lower_iff (d := '-') (by decide),
    Text.getLast?_lower_iff (d := '-') (by decide)]

theorem labels_lower (name : List Char) :
    labels (Text.lower name) = (labels name).map Text.lower := by
  rw [labels, labels, ← Text.lower_dropFinal (by decide), Text.lower_splitOn (by decide)]

theorem isLabelList_lower (name : List Char) :
    isLabelList (Text.lower name) = isLabelList name := by
  rw [isLabelList, isLabelList, labels_lower, ← Text.lower_dropFinal (by decide),
    Text.octets_lower]
  simp [Function.comp_def, isLabel_lower]

/-- Case plays no part in what is a full name. -/
theorem isFull_lower (name : List Char) : isFull (Text.lower name) = isFull name := by
  rw [isFull, isFull, isLabelList_lower, labels_lower, List.length_map, List.getLast?_map]
  cases (labels name).getLast? with
  | none => rfl
  | some top =>
    have hdigits : (Text.lower top).all Char.isDigit = top.all Char.isDigit := by
      simp only [Text.lower, List.all_map, Function.comp_def, Text.isDigit_toLower]
    rw [Bool.eq_iff_iff]
    simp only [Option.map_some, hdigits, Bool.and_eq_true, bne_iff_ne, ne_eq,
      Text.head?_lower_iff (d := '_') (by decide)]

theorem isLabelList_of_isFull {name : List Char} (h : isFull name = true) :
    isLabelList name = true := by
  simp only [isFull, Bool.and_eq_true] at h
  exact h.1.1

/-- A name is full with a final dot exactly if it is full without. -/
theorem isFull_dropFinal {name : List Char} (h : isLabelList name = true) :
    isFull (Text.dropFinal '.' name) = isFull name := by
  rw [isFull, isFull, isLabelList, isLabelList, labels, labels, dropFinal_dropFinal h]

/-- The canonical form of a full name is full. -/
theorem isFull_canonical {name : List Char} (h : isFull name = true) :
    isFull (canonical name) = true := by
  have hlower : isFull (Text.lower name) = true := by rw [isFull_lower, h]
  rw [canonical, isFull_dropFinal (isLabelList_of_isFull hlower), hlower]

theorem canonical_canonical {name : List Char} (h : isFull name = true) :
    canonical (canonical name) = canonical name := by
  have hlower : isLabelList (Text.lower name) = true := by
    rw [isLabelList_lower, isLabelList_of_isFull h]
  rw [canonical, canonical, Text.lower_dropFinal (by decide), Text.lower_lower,
    dropFinal_dropFinal hlower]

/-- A canonical name has the characters of names only. -/
theorem isNameChar_of_mem_canonical {name : List Char} (h : isFull name = true) {c : Char}
    (hc : c ∈ canonical name) : IsNameChar c :=
  isNameChar_of_mem (isLabelList_of_isFull (isFull_canonical h)) hc

theorem isWord_of_isLabelList {name : List Char} (h : isLabelList name = true) :
    Text.IsWord name :=
  Text.isWord_of_graphic (ne_nil_of_isLabelList h) fun _ hc => (isNameChar_of_mem h hc).isGraphic

/-- Another spelling of a full name is full too. -/
theorem isFull_of_canonical_eq {a b : List Char} (ha : isFull a = true)
    (h : canonical b = canonical a) : isFull b = true := by
  have hlower : isLabelList (Text.lower a) = true := by
    rw [isLabelList_lower, isLabelList_of_isFull ha]
  have hfull : isFull (Text.lower (Text.dropFinal '.' b)) = true := by
    rw [Text.lower_dropFinal (by decide), ← canonical, h, isFull_canonical ha]
  have hlast : (Text.dropFinal '.' (Text.lower b)).getLast? ≠ some '.' := by
    rw [← canonical, h, canonical]
    exact getLast?_dropFinal_ne hlower
  -- A second final dot of `b` would be left in its canonical form.
  have hdot : Text.dropFinal '.' (Text.dropFinal '.' b) = Text.dropFinal '.' b := by
    apply Text.dropFinal_eq_self
    intro hb
    rw [← Text.lower_dropFinal (by decide)] at hlast
    exact hlast ((Text.getLast?_lower_iff (by decide) _).mpr hb)
  rw [isFull_lower] at hfull
  rw [isFull, isLabelList, labels, hdot] at hfull
  rwa [isFull, isLabelList, labels]

end HostName
end SenderPolicy
