import Mathlib.Data.List.TakeWhile
import SenderPolicy.Text.Blank

/-! Words are what is left of a text when its blanks are dropped. Words that are joined
by spaces are found again, and blanks at the ends of a text do not count. -/
namespace SenderPolicy.Text

structure IsWord (s : List Char) : Prop where
  ne_nil : s ≠ []
  not_blank : ∀ c ∈ s, isBlank c = false

theorem IsWord.words_eq {s : List Char} (h : IsWord s) : words s = [s] :=
  words_eq_singleton h.ne_nil h.not_blank

theorem IsWord.trim_eq {s : List Char} (h : IsWord s) : trim s = s :=
  trim_eq_self h.not_blank

theorem IsWord.append {s t : List Char} (hs : IsWord s) (ht : ∀ c ∈ t, isBlank c = false) :
    IsWord (s ++ t) where
  ne_nil := by simp [hs.ne_nil]
  not_blank c hc := by
    rcases List.mem_append.mp hc with h | h
    · exact hs.not_blank c h
    · exact ht c h

theorem isBlank_space : isBlank ' ' = true := by decide

theorem IsWord.space_not_mem {s : List Char} (h : IsWord s) : ' ' ∉ s := by
  intro hspace
  simpa [isBlank_space] using h.not_blank ' ' hspace

/-- What a split leaves between the separators contains none of them. -/
theorem forall_mem_splitOnP {p : Char → Bool} (s : List Char) :
    ∀ part ∈ s.splitOnP p, ∀ c ∈ part, p c = false := by
  induction s with
  | nil => simp
  | cons x xs ih =>
    -- The first part of the rest is the one that `x` would join.
    obtain ⟨first, parts, hxs⟩ := List.exists_cons_of_ne_nil (List.splitOnP_ne_nil p xs)
    rw [hxs, List.forall_mem_cons] at ih
    rw [List.splitOnP_cons_eq_if_modifyHead, hxs]
    by_cases hx : p x = true
    · simpa [hx] using ih
    · simpa [hx] using ih

theorem isWord_of_mem_words {s w : List Char} (h : w ∈ words s) : IsWord w := by
  obtain ⟨hw, hne⟩ := List.mem_filter.mp h
  exact ⟨by simpa using hne, forall_mem_splitOnP s w hw⟩

/-- Words are told apart again when they are joined by spaces. -/
theorem words_intercalate {ws : List (List Char)} (h : ∀ w ∈ ws, IsWord w) :
    words ([' '].intercalate ws) = ws := by
  induction ws with
  | nil => rfl
  | cons w ws ih =>
    have hw := h w List.mem_cons_self
    cases ws with
    | nil => simpa using hw.words_eq
    | cons v vs =>
      have hvs := ih fun x hx => h x (List.mem_cons_of_mem w hx)
      rw [List.intercalate_cons_cons, List.append_assoc, List.singleton_append,
        words_append_blank isBlank_space, hw.words_eq, hvs, List.singleton_append]

theorem words_of_blanks {s : List Char} (h : ∀ c ∈ s, isBlank c = true) : words s = [] := by
  induction s with
  | nil => exact words_nil
  | cons c s ih =>
    rw [words_blank_cons (h c List.mem_cons_self)]
    exact ih fun d hd => h d (List.mem_cons_of_mem c hd)

/-- Blanks in front do not count. -/
theorem words_blanks_append {b : List Char} (hb : ∀ c ∈ b, isBlank c = true) (s : List Char) :
    words (b ++ s) = words s := by
  induction b with
  | nil => rfl
  | cons c b ih =>
    rw [List.cons_append, words_blank_cons (hb c List.mem_cons_self)]
    exact ih fun d hd => hb d (List.mem_cons_of_mem c hd)

theorem words_append_blanks (s : List Char) {b : List Char} (hb : ∀ c ∈ b, isBlank c = true) :
    words (s ++ b) = words s := by
  cases b with
  | nil => rw [List.append_nil]
  | cons c b =>
    rw [words_append_blank (hb c List.mem_cons_self),
      words_of_blanks fun d hd => hb d (List.mem_cons_of_mem c hd), List.append_nil]

/-- A text is its trimmed form between two runs of blanks. -/
theorem exists_eq_blanks_trim (s : List Char) :
    ∃ a b, s = a ++ trim s ++ b ∧ (∀ c ∈ a, isBlank c = true) ∧ ∀ c ∈ b, isBlank c = true := by
  let t := (s.dropWhile isBlank).reverse
  refine ⟨s.takeWhile isBlank, (t.takeWhile isBlank).reverse, ?_, ?_, ?_⟩
  · have ht : trim s ++ (t.takeWhile isBlank).reverse = s.dropWhile isBlank := by
      rw [trim, ← List.reverse_append, List.takeWhile_append_dropWhile, List.reverse_reverse]
    rw [List.append_assoc, ht, List.takeWhile_append_dropWhile]
  · intro c hc
    exact List.mem_takeWhile_imp hc
  · intro c hc
    exact List.mem_takeWhile_imp (List.mem_reverse.mp hc)

theorem trim_eq_nil_iff {s : List Char} : trim s = [] ↔ ∀ c ∈ s, isBlank c = true := by
  constructor
  · intro h
    obtain ⟨a, b, hs, ha, hb⟩ := exists_eq_blanks_trim s
    rw [h, List.append_nil] at hs
    exact hs ▸ List.forall_mem_append.mpr ⟨ha, hb⟩
  · intro h
    rw [trim, List.dropWhile_eq_nil_iff.mpr h]
    rfl

/-- Blanks at either end of a text are trimmed with those that are there. -/
theorem trim_blanks {a b : List Char} (ha : ∀ c ∈ a, isBlank c = true)
    (hb : ∀ c ∈ b, isBlank c = true) (s : List Char) : trim (a ++ s ++ b) = trim s := by
  by_cases hs : ∀ c ∈ s, isBlank c = true
  · have hall : ∀ c ∈ a ++ s ++ b, isBlank c = true :=
      List.forall_mem_append.mpr ⟨List.forall_mem_append.mpr ⟨ha, hs⟩, hb⟩
    rw [trim_eq_nil_iff.mpr hs, trim_eq_nil_iff.mpr hall]
  · -- Something of the text stops the trimming at the front.
    have hfront : (s ++ b).dropWhile isBlank = s.dropWhile isBlank ++ b := by
      rw [List.dropWhile_append, if_neg]
      rwa [List.isEmpty_iff, List.dropWhile_eq_nil_iff]
    have hback : ∀ c ∈ b.reverse, isBlank c = true := fun c hc => hb c (List.mem_reverse.mp hc)
    rw [trim, trim, List.append_assoc, List.dropWhile_append_of_pos ha, hfront,
      List.reverse_append, List.dropWhile_append_of_pos hback]

/-- Trimming loses no word. -/
theorem words_trim (s : List Char) : words (trim s) = words s := by
  obtain ⟨a, b, hs, ha, hb⟩ := exists_eq_blanks_trim s
  have h : words (a ++ trim s ++ b) = words (trim s) := by
    rw [List.append_assoc, words_blanks_append ha, words_append_blanks _ hb]
  rw [← h, ← hs]

theorem words_of_isWord_trim {s : List Char} (h : IsWord (trim s)) : words s = [trim s] := by
  rw [← words_trim, h.words_eq]

end SenderPolicy.Text
