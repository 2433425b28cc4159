import Mathlib.Data.List.Basic
import SenderPolicy.Proofs.Text.Words
import SenderPolicy.Text.Cut

/-! Texts that are joined by a separator, and where a doubled separator is found in
them. -/
namespace SenderPolicy.Text

theorem cutFirst_append_left {sep : Char} {a : List Char} (ha : sep ∉ a) (s : List Char) :
    cutFirst sep (a ++ s) = (cutFirst sep s).map fun p => (a ++ p.1, p.2) := by
  induction a with
  | nil => simp
  | cons c a ih =>
    have hc : c ≠ sep := fun h => ha (h ▸ List.mem_cons_self)
    rw [List.cons_append, cutFirst, if_neg hc, ih fun h => ha (List.mem_cons_of_mem c h)]
    simp [Function.comp_def]

/-- A character that does not start a doubled separator stays in front of the cut. -/
theorem cutDouble_cons {sep c : Char} {s : List Char} (h : c ≠ sep ∨ s.head? ≠ some sep) :
    cutDouble sep (c :: s) = (cutDouble sep s).map fun p => (c :: p.1, p.2) := by
  cases s with
  | nil => rfl
  | cons d s =>
    have hcd : ¬(c = sep ∧ d = sep) := by
      intro h'
      obtain ⟨rfl, rfl⟩ := h'
      simp at h
    rw [cutDouble, if_neg hcd]

theorem cutDouble_eq_none {sep : Char} {a : List Char} (ha : sep ∉ a) :
    cutDouble sep a = none := by
  induction a with
  | nil => rfl
  | cons c a ih =>
    have hc : c ≠ sep := fun h => ha (h ▸ List.mem_cons_self)
    rw [cutDouble_cons (.inl hc), ih fun h => ha (List.mem_cons_of_mem c h)]
    rfl

/-- A text without a doubled separator stays in front of the cut, unless it ends in a
separator that could be taken for the first of the two. -/
theorem cutDouble_append {sep : Char} {a : List Char} (ha : cutDouble sep a = none)
    (hlast : a.getLast? ≠ some sep) (s : List Char) :
    cutDouble sep (a ++ s) = (cutDouble sep s).map fun p => (a ++ p.1, p.2) := by
  induction a with
  | nil => simp
  | cons c a ih =>
    -- The pair that starts at `c` is not doubled, neither inside the text nor at its end.
    have hc : c ≠ sep ∨ (a ++ s).head? ≠ some sep := by
      cases a with
      | nil => exact .inl fun h => hlast (by simp [h])
      | cons d a =>
        by_cases hcd : c = sep ∧ d = sep
        · simp [cutDouble, hcd] at ha
        · simpa using not_and_or.mp hcd
    have ha' : cutDouble sep a = none := by
      cases a with
      | nil => rfl
      | cons d a =>
        have hcd : c ≠ sep ∨ (d :: a).head? ≠ some sep := by simpa using hc
        simpa [cutDouble_cons hcd] using ha
    have hlast' : a.getLast? ≠ some sep := by
      cases a with
      | nil => simp
      | cons d a => simpa using hlast
    rw [List.cons_append, cutDouble_cons hc, ih ha' hlast']
    simp [Function.comp_def]

theorem cutDouble_append_of_not_mem {sep : Char} {a : List Char} (ha : sep ∉ a) (s : List Char) :
    cutDouble sep (a ++ s) = (cutDouble sep s).map fun p => (a ++ p.1, p.2) :=
  cutDouble_append (cutDouble_eq_none ha) (fun h => ha (List.mem_of_getLast? h)) s

/-- One separator behind a text that does not end in one doubles nothing. -/
theorem cutDouble_single {sep : Char} {a b : List Char} (ha : cutDouble sep a = none)
    (hlast : a.getLast? ≠ some sep) (hb : sep ∉ b) : cutDouble sep (a ++ sep :: b) = none := by
  have hhead : b.head? ≠ some sep := fun h => hb (List.mem_of_head? h)
  rw [cutDouble_append ha hlast, cutDouble_cons (.inr hhead), cutDouble_eq_none hb]
  rfl

/-- The cut is at the first doubled separator. -/
theorem cutDouble_append_cons_cons {sep : Char} {a : List Char} (ha : cutDouble sep a = none)
    (hlast : a.getLast? ≠ some sep) (b : List Char) :
    cutDouble sep (a ++ sep :: sep :: b) = some (a, b) := by
  rw [cutDouble_append ha hlast]
  simp [cutDouble]

/-- A cut is found exactly if two separators stand side by side. -/
theorem cutDouble_eq_none_iff {sep : Char} {s : List Char} :
    cutDouble sep s = none ↔ ¬ [sep, sep] <:+: s := by
  induction s with
  | nil => simp [cutDouble]
  | cons c s ih =>
    by_cases hc : c ≠ sep ∨ s.head? ≠ some sep
    · have hstart : ¬ [sep, sep] <+: c :: s := by
        rintro ⟨t, ht⟩
        obtain ⟨rfl, rfl⟩ : sep = c ∧ sep :: t = s := by simpa using ht
        simp at hc
      rw [cutDouble_cons hc, Option.map_eq_none_iff, ih, List.infix_cons_iff, or_iff_right hstart]
    · obtain ⟨rfl, hhead⟩ : c = sep ∧ s.head? = some sep := by simpa using hc
      obtain ⟨t, rfl⟩ := List.head?_eq_some_iff.mp hhead
      have hdouble : [c, c] <:+: c :: c :: t := (List.prefix_append [c, c] t).isInfix
      simp [cutDouble, hdouble]

/-- The front of a text without a doubled separator. -/
theorem cutDouble_front {sep : Char} {a b : List Char} (h : cutDouble sep (a ++ sep :: b) = none) :
    cutDouble sep a = none ∧ a.getLast? ≠ some sep := by
  rw [cutDouble_eq_none_iff] at h ⊢
  refine ⟨fun hdouble => h (hdouble.trans (List.prefix_append a _).isInfix), fun hlast => h ?_⟩
  obtain ⟨a', rfl⟩ := List.getLast?_eq_some_iff.mp hlast
  exact ⟨a', b, by simp⟩

/-- The cut is in front of the first doubled separator. -/
theorem eq_append_of_cutDouble {sep : Char} {s a b : List Char}
    (h : cutDouble sep s = some (a, b)) :
    s = a ++ sep :: sep :: b ∧ cutDouble sep (a ++ [sep]) = none := by
  induction s generalizing a with
  | nil => cases h
  | cons c s ih =>
    by_cases hc : c ≠ sep ∨ s.head? ≠ some sep
    · rw [cutDouble_cons hc, Option.map_eq_some_iff] at h
      obtain ⟨⟨a', b'⟩, hcut, hpair⟩ := h
      obtain ⟨rfl, rfl⟩ := Prod.mk.inj hpair
      obtain ⟨rfl, hfront⟩ := ih hcut
      -- The new front starts like the text, so nothing is doubled at its start either.
      have hstart : c ≠ sep ∨ (a' ++ [sep]).head? ≠ some sep := by
        cases a' <;> simpa using hc
      exact ⟨rfl, by rw [List.cons_append, cutDouble_cons hstart, hfront]; rfl⟩
    · obtain ⟨rfl, hhead⟩ : c = sep ∧ s.head? = some sep := by simpa using hc
      obtain ⟨t, rfl⟩ := List.head?_eq_some_iff.mp hhead
      obtain ⟨rfl, rfl⟩ : [] = a ∧ t = b := by simpa [cutDouble] using h
      exact ⟨rfl, rfl⟩

/-- Parts that are joined show no doubled separator if none of them is empty. -/
theorem cutDouble_intercalate {sep : Char} {parts : List (List Char)}
    (h : ∀ part ∈ parts, part ≠ [] ∧ sep ∉ part) :
    cutDouble sep ([sep].intercalate parts) = none := by
  induction parts with
  | nil => rfl
  | cons part parts ih =>
    obtain ⟨⟨-, hpart⟩, hparts⟩ := List.forall_mem_cons.mp h
    cases parts with
    | nil => simpa using cutDouble_eq_none hpart
    | cons next parts =>
      -- Behind the separator the next part starts, which is not empty.
      obtain ⟨d, next', rfl⟩ := List.exists_cons_of_ne_nil (hparts next List.mem_cons_self).1
      have hd : d ≠ sep := fun h => (hparts _ List.mem_cons_self).2 (h ▸ List.mem_cons_self)
      have hhead : ([sep].intercalate ((d :: next') :: parts)).head? ≠ some sep := by
        cases parts <;> simpa using hd
      rw [List.intercalate_cons_cons, List.append_assoc, List.singleton_append,
        cutDouble_append_of_not_mem hpart, cutDouble_cons (.inr hhead), ih hparts]
      rfl

theorem getLast?_intercalate_ne {sep : Char} {parts : List (List Char)}
    (h : ∀ part ∈ parts, part ≠ [] ∧ sep ∉ part) :
    ([sep].intercalate parts).getLast? ≠ some sep := by
  induction parts with
  | nil => simp
  | cons part parts ih =>
    obtain ⟨⟨-, hpart⟩, hparts⟩ := List.forall_mem_cons.mp h
    cases parts with
    | nil => simpa using fun hlast => hpart (List.mem_of_getLast? hlast)
    | cons next parts =>
      have hne : [sep].intercalate (next :: parts) ≠ [] := by
        have := (hparts next List.mem_cons_self).1
        cases parts <;> simp [this]
      rw [List.intercalate_cons_cons, List.getLast?_append_of_ne_nil _ hne]
      exact ih hparts

theorem mem_intercalate {sep c : Char} {parts : List (List Char)}
    (h : c ∈ [sep].intercalate parts) : c = sep ∨ ∃ part ∈ parts, c ∈ part := by
  induction parts with
  | nil => simp at h
  | cons part parts ih =>
    cases parts with
    | nil => exact .inr ⟨part, List.mem_cons_self, by simpa using h⟩
    | cons next parts =>
      rw [List.intercalate_cons_cons, List.mem_append, List.mem_append, List.mem_singleton] at h
      rcases h with (h | h) | h
      · exact .inr ⟨part, List.mem_cons_self, h⟩
      · exact .inl h
      · rcases ih h with h | ⟨p, hp, hc⟩
        · exact .inl h
        · exact .inr ⟨p, List.mem_cons_of_mem part hp, hc⟩

/-- Words that are joined by spaces begin and end in a character that is not blank. -/
theorem trim_intercalate {ws : List (List Char)} (h : ∀ w ∈ ws, IsWord w) :
    trim ([' '].intercalate ws) = [' '].intercalate ws := by
  have hparts : ∀ w ∈ ws, w ≠ [] ∧ ' ' ∉ w := fun w hw => ⟨(h w hw).ne_nil, (h w hw).space_not_mem⟩
  apply trim_eq_self_of_ends
  · cases ws with
    | nil => simp
    | cons w ws =>
      have hw := h w List.mem_cons_self
      have hhead : ([' '].intercalate (w :: ws)).head? = w.head? := by
        obtain ⟨c, cs, rfl⟩ := List.exists_cons_of_ne_nil hw.ne_nil
        cases ws <;> simp
      rw [hhead]
      exact fun c hc => hw.not_blank c (List.mem_of_head? hc)
  · intro c hc
    rcases mem_intercalate (List.mem_of_getLast? hc) with rfl | ⟨w, hw, hcw⟩
    · exact absurd hc (getLast?_intercalate_ne hparts)
    · exact (h w hw).not_blank c hcw

/-- What stands before the first `sep` of one cut of a text also does in any other. -/
theorem eq_or_mem_of_append_eq {sep c : Char} {a b body rest : List Char} (hbody : sep ∉ body)
    (heq : a ++ sep :: b = body ++ c :: rest) : c = sep ∨ c ∈ a := by
  rcases List.append_eq_append_iff.mp heq with ⟨x, rfl, hx⟩ | ⟨x, rfl, hx⟩
  · cases x with
    | nil => exact .inl (List.cons.inj hx).1.symm
    | cons d x =>
      obtain rfl := (List.cons.inj hx).1
      simp at hbody
  · cases x with
    | nil => exact .inl (List.cons.inj hx).1
    | cons d x => exact .inr (by simp [(List.cons.inj hx).1])

/-- A run of characters with the property `p` ends where the next character lacks it. -/
theorem takeWhile_dropWhile_append {p : Char → Bool} {a b : List Char} (ha : ∀ c ∈ a, p c = true)
    (hb : ∀ c ∈ b.head?, p c = false) :
    (a ++ b).takeWhile p = a ∧ (a ++ b).dropWhile p = b := by
  rw [List.takeWhile_append_of_pos ha, List.dropWhile_append_of_pos ha]
  cases b with
  | nil => simp
  | cons c b => simp [hb c rfl]

end SenderPolicy.Text
