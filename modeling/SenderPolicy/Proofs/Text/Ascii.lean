import SenderPolicy.Proofs.Text.Words
import SenderPolicy.Text.Letters

/-! ASCII letters and digits by their code points, and what lower case does to them. -/
namespace SenderPolicy.Text

theorem isUpper_iff {c : Char} : c.isUpper = true ↔ 65 ≤ c.toNat ∧ c.toNat ≤ 90 := by
  show decide (_ ∧ _) = true ↔ _
  rw [decide_eq_true_eq]
  exact Iff.rfl

theorem isLower_iff {c : Char} : c.isLower = true ↔ 97 ≤ c.toNat ∧ c.toNat ≤ 122 := by
  show (decide _ && decide _) = true ↔ _
  rw [Bool.and_eq_true, decide_eq_true_eq, decide_eq_true_eq]
  exact Iff.rfl

theorem isDigit_iff {c : Char} : c.isDigit = true ↔ 48 ≤ c.toNat ∧ c.toNat ≤ 57 := by
  simp only [Char.isDigit, Bool.and_eq_true, decide_eq_true_eq]
  exact Iff.rfl

theorem isAlpha_iff {c : Char} :
    c.isAlpha = true ↔ 65 ≤ c.toNat ∧ c.toNat ≤ 90 ∨ 97 ≤ c.toNat ∧ c.toNat ≤ 122 := by
  show (c.isUpper || c.isLower) = true ↔ _
  rw [Bool.or_eq_true, isUpper_iff, isLower_iff]

theorem isAlphanum_iff {c : Char} : c.isAlphanum = true ↔
    (65 ≤ c.toNat ∧ c.toNat ≤ 90 ∨ 97 ≤ c.toNat ∧ c.toNat ≤ 122) ∨
      48 ≤ c.toNat ∧ c.toNat ≤ 57 := by
  rw [Char.isAlphanum, Bool.or_eq_true, isAlpha_iff, isDigit_iff]

def IsGraphic (c : Char) : Prop :=
  -- The characters of ASCII that leave a mark on paper. None of them is a blank.
  33 ≤ c.toNat ∧ c.toNat ≤ 126

instance (c : Char) : Decidable (IsGraphic c) :=
  inferInstanceAs (Decidable (33 ≤ c.toNat ∧ c.toNat ≤ 126))

theorem IsGraphic.isBlank_eq {c : Char} (h : IsGraphic c) : isBlank c = false := by
  obtain ⟨hlow, hhigh⟩ := h
  simp only [isBlank, Bool.or_eq_false_iff, Bool.and_eq_false_iff, decide_eq_false_iff_not,
    beq_eq_false_iff_ne]
  omega

theorem isGraphic_of_isAlphanum {c : Char} (h : c.isAlphanum = true) : IsGraphic c := by
  rw [isAlphanum_iff] at h
  rw [IsGraphic]
  omega

theorem isWord_of_graphic {s : List Char} (hne : s ≠ []) (h : ∀ c ∈ s, IsGraphic c) : IsWord s :=
  ⟨hne, fun c hc => (h c hc).isBlank_eq⟩

/-- The same as a check that can be run on a text that is written out. -/
theorem isWord_of_all_graphic {s : List Char}
    (h : (!s.isEmpty && s.all fun c => decide (IsGraphic c)) = true) : IsWord s := by
  rw [Bool.and_eq_true, List.all_eq_true] at h
  apply isWord_of_graphic (by simpa using h.1)
  intro c hc
  exact of_decide_eq_true (h.2 c hc)

theorem toNat_toLower (c : Char) :
    c.toLower.toNat = if 65 ≤ c.toNat ∧ c.toNat ≤ 90 then c.toNat + 32 else c.toNat := by
  unfold Char.toLower
  by_cases h : 65 ≤ c.toNat ∧ c.toNat ≤ 90
  · have hval : c.val ≥ 'A'.val ∧ c.val ≤ 'Z'.val := h
    have hadd : (c.val + 32).toNat = (c.val.toNat + 32) % 2 ^ 32 := UInt32.toNat_add c.val 32
    have hnat : c.val.toNat = c.toNat := rfl
    rw [if_pos h, dif_pos hval]
    show (c.val + 32).toNat = c.toNat + 32
    omega
  · have hval : ¬(c.val ≥ 'A'.val ∧ c.val ≤ 'Z'.val) := h
    rw [if_neg h, dif_neg hval]

theorem toLower_eq_self {c : Char} (h : c.isUpper = false) : c.toLower = c := by
  rw [← Bool.not_eq_true, isUpper_iff] at h
  rw [← Char.toNat_inj, toNat_toLower, if_neg h]

/-- Only letters change in lower case, and they change to letters. -/
theorem toLower_eq_iff {c d : Char} (hd : d.isAlpha = false) : c.toLower = d ↔ c = d := by
  have hd' : ¬(65 ≤ d.toNat ∧ d.toNat ≤ 90 ∨ 97 ≤ d.toNat ∧ d.toNat ≤ 122) := by
    rw [← isAlpha_iff, hd]
    decide
  rw [← Char.toNat_inj, ← Char.toNat_inj, toNat_toLower]
  split
  · omega
  · exact Iff.rfl

theorem toLower_toLower (c : Char) : c.toLower.toLower = c.toLower := by
  rw [← Char.toNat_inj, toNat_toLower c.toLower, if_neg]
  rw [toNat_toLower]
  split <;> omega

theorem isAlpha_toLower (c : Char) : c.toLower.isAlpha = c.isAlpha := by
  rw [Bool.eq_iff_iff, isAlpha_iff, isAlpha_iff, toNat_toLower]
  split <;> omega

theorem isAlphanum_toLower (c : Char) : c.toLower.isAlphanum = c.isAlphanum := by
  rw [Bool.eq_iff_iff, isAlphanum_iff, isAlphanum_iff, toNat_toLower]
  split <;> omega

theorem isDigit_toLower (c : Char) : c.toLower.isDigit = c.isDigit := by
  rw [Bool.eq_iff_iff, isDigit_iff, isDigit_iff, toNat_toLower]
  split <;> omega

theorem utf8Size_toLower (c : Char) : c.toLower.utf8Size = c.utf8Size := by
  cases hupper : c.isUpper with
  | true =>
    have h := isUpper_iff.mp hupper
    have hsmall : ∀ d : Char, d.toNat ≤ 127 → d.utf8Size = 1 := fun d hd =>
      Char.utf8Size_eq_one_iff.mpr hd
    rw [hsmall c (by omega), hsmall c.toLower (by rw [toNat_toLower, if_pos h]; omega)]
  | false => rw [toLower_eq_self hupper]

theorem lower_lower (s : List Char) : lower (lower s) = lower s := by
  simp only [lower, List.map_map, Function.comp_def, toLower_toLower]

theorem octets_lower (s : List Char) : octets (lower s) = octets s := by
  induction s with
  | nil => rfl
  | cons c s ih =>
    show octets (c.toLower :: lower s) = _
    rw [octets_cons, octets_cons, utf8Size_toLower, ih]

/-- A sign that is no letter is in front exactly if it was before. -/
theorem head?_lower_iff {d : Char} (hd : d.isAlpha = false) (s : List Char) :
    (lower s).head? = some d ↔ s.head? = some d := by
  simp [lower, List.head?_map, toLower_eq_iff hd]

theorem getLast?_lower_iff {d : Char} (hd : d.isAlpha = false) (s : List Char) :
    (lower s).getLast? = some d ↔ s.getLast? = some d := by
  simp [lower, List.getLast?_map, toLower_eq_iff hd]

end SenderPolicy.Text
