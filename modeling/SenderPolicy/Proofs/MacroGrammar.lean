import Mathlib.Algebra.Group.Nat.Defs
import SenderPolicy.MacroString
import SenderPolicy.Proofs.Text.Ascii
import SenderPolicy.Proofs.Text.Separators

/-! The grammar of macro strings, stated apart from the scanner. A text is made of items in
one way at most, because no item is the beginning of another one. -/
namespace SenderPolicy.MacroString

/-! The grammar -/

def macroLetters : List Char :=
  -- The letters of a domain's macros in either case.
  ['s', 'l', 'o', 'd', 'i', 'p', 'h', 'v', 'S', 'L', 'O', 'D', 'I', 'P', 'H', 'V']

def escapeMarks : List Char :=
  ['%', '_', '-']

def labelDelimiters : List Char :=
  ['.', '-', '+', ',', '/', '_', '=']

structure Transformers where
  -- What stands behind the letter of a macro in braces.
  digits : List Char
  reversal : Option Char
  delimiters : List Char
  deriving DecidableEq

def Transformers.text (t : Transformers) : List Char :=
  t.digits ++ (t.reversal.toList ++ t.delimiters)

structure Transformers.Valid (t : Transformers) : Prop where
  digits : ∀ c ∈ t.digits, c.isDigit = true
  /-- The number of labels may be left out. It is not zero and fits 64 bits. -/
  number : t.digits ≠ [] →
    0 < Nat.ofDigitChars 10 t.digits 0 ∧ Nat.ofDigitChars 10 t.digits 0 < 2 ^ 64
  reversal : ∀ c ∈ t.reversal, c = 'r' ∨ c = 'R'
  delimiters : ∀ c ∈ t.delimiters, c ∈ labelDelimiters

inductive Item
  | plain (c : Char)
  | escape (mark : Char)
  | shorthand (letter : Char)
  | braced (letter : Char) (transformers : Transformers)
  deriving DecidableEq

namespace Item

def text : Item → List Char
  | plain c => [c]
  | escape mark => ['%', mark]
  | shorthand letter => ['%', letter]
  | braced letter transformers => '%' :: '\x7b' :: letter :: transformers.text ++ ['\x7d']

def Valid : Item → Prop
  | plain c => c ≠ '%' ∧ c ≠ '\x7d'
  | escape mark => mark ∈ escapeMarks
  | shorthand letter => letter ∈ macroLetters
  | braced letter transformers => letter ∈ macroLetters ∧ transformers.Valid

end Item

def spelling (items : List Item) : List Char :=
  items.flatMap Item.text

structure Spells (items : List Item) (s : List Char) : Prop where
  valid : ∀ i ∈ items, i.Valid
  spelling_eq : spelling items = s

def StandsInMacro (c : Char) (s : List Char) : Prop :=
  -- The character `c` stands in a macro of `s`, behind the percent sign or between the braces.
  ∃ items before rest, Spells items before ∧
    (s = before ++ '%' :: c :: rest ∨
      ∃ body, '\x7d' ∉ body ∧ s = before ++ '%' :: '\x7b' :: (body ++ c :: rest))

/-! Letters and transformers -/

theorem isMark_iff {c : Char} : isMark c = true ↔ c ∈ escapeMarks := by
  simp [isMark, escapeMarks, or_assoc]

theorem isDelimiter_iff {c : Char} : isDelimiter c = true ↔ c ∈ labelDelimiters := by
  simp [isDelimiter, labelDelimiters]

/-- The macro letters may be written in either case. -/
theorem checkLetter_eq_ok_iff {c : Char} : checkLetter c = .ok () ↔ c ∈ macroLetters := by
  have hlower : checkLetter c = .ok () ↔ c.toLower ∈ ['s', 'l', 'o', 'd', 'i', 'p', 'h', 'v'] := by
    by_cases h : c.toLower ∈ ['s', 'l', 'o', 'd', 'i', 'p', 'h', 'v']
    · have hcontains : "slodiphv".toList.contains c.toLower = true := by simpa using h
      simp only [checkLetter, hcontains, if_true, h]
    · have hcontains : "slodiphv".toList.contains c.toLower = false := by simpa using h
      simp only [checkLetter, hcontains, Bool.false_eq_true, if_false, h]
      split <;> simp
  -- Lower case moves the capitals by 32 and keeps everything else.
  rw [hlower]
  simp only [macroLetters, List.mem_cons, List.not_mem_nil, or_false, ← Char.toNat_inj,
    Text.toNat_toLower, Char.reduceToNat]
  split <;> omega

theorem isAlphanum_of_mem_macroLetters {c : Char} (h : c ∈ macroLetters) :
    c.isAlphanum = true := by
  have letters : macroLetters.all Char.isAlphanum = true := by decide
  exact List.all_eq_true.mp letters c h

theorem ne_of_mem_macroLetters {c d : Char} (h : c ∈ macroLetters) (hd : d.isAlphanum = false) :
    c ≠ d := by
  rintro rfl
  rw [isAlphanum_of_mem_macroLetters h] at hd
  cases hd

theorem not_isMark_of_mem_macroLetters {c : Char} (h : c ∈ macroLetters) : isMark c = false := by
  simp [isMark, ne_of_mem_macroLetters h]

theorem not_mem_macroLetters_of_mark {c : Char} (h : c ∈ escapeMarks) : c ∉ macroLetters := by
  intro hletter
  have hmark := isMark_iff.mpr h
  rw [not_isMark_of_mem_macroLetters hletter] at hmark
  cases hmark

/-- Of a reversal sign there is one at most, which is taken off. -/
theorem exists_reversal (s : List Char) :
    ∃ reversal : Option Char, (∀ c ∈ reversal, c = 'r' ∨ c = 'R') ∧
      s = reversal.toList ++ afterReversal s := by
  cases s with
  | nil => exact ⟨none, by simp, rfl⟩
  | cons c s =>
    by_cases hc : c = 'r' ∨ c = 'R'
    · exact ⟨some c, by simpa using hc, by simp [afterReversal, hc]⟩
    · exact ⟨none, by simp, by simp [afterReversal, hc]⟩

namespace Transformers.Valid

variable {t t' : Transformers} (h : t.Valid)
include h

theorem afterReversal_eq : afterReversal (t.reversal.toList ++ t.delimiters) = t.delimiters := by
  cases hr : t.reversal with
  | some c => simp [afterReversal, h.reversal c hr]
  | none =>
    cases hd : t.delimiters with
    | nil => rfl
    | cons c cs =>
      have hc : c ∈ labelDelimiters := h.delimiters c (by simp [hd])
      have hne : ¬(c = 'r' ∨ c = 'R') := by
        rintro (rfl | rfl) <;> exact absurd hc (by decide)
      simp [afterReversal, hne]

theorem not_isDigit_of_mem_tail {c : Char} (hc : c ∈ t.reversal.toList ++ t.delimiters) :
    c.isDigit = false := by
  rcases List.mem_append.mp hc with hc | hc
  · rcases h.reversal c (by simpa using hc) with rfl | rfl <;> decide
  · have delimiters : labelDelimiters.all (!Char.isDigit ·) = true := by decide
    simpa using List.all_eq_true.mp delimiters c (h.delimiters c hc)

/-- The text of valid transformers can be taken apart again. -/
theorem split_text : t.text.takeWhile Char.isDigit = t.digits ∧
    t.text.dropWhile Char.isDigit = t.reversal.toList ++ t.delimiters :=
  Text.takeWhile_dropWhile_append h.digits
    fun _ hc => h.not_isDigit_of_mem_tail (List.mem_of_mem_head? hc)

theorem eq_of_text_eq (h' : t'.Valid) (htext : t.text = t'.text) : t = t' := by
  have hdigits : t.digits = t'.digits := by rw [← h.split_text.1, htext, h'.split_text.1]
  have htail : t.reversal.toList ++ t.delimiters = t'.reversal.toList ++ t'.delimiters := by
    rw [← h.split_text.2, htext, h'.split_text.2]
  have hdelimiters : t.delimiters = t'.delimiters := by
    rw [← h.afterReversal_eq, htail, h'.afterReversal_eq]
  -- The delimiters agree, so what is left of the two tails is the reversals.
  have hreversal : t.reversal = t'.reversal := by
    rw [hdelimiters, List.append_cancel_right_eq] at htail
    simpa using congrArg List.head? htail
  cases t
  cases t'
  simp_all

end Transformers.Valid

/-- The check accepts the texts of valid transformers and no others. -/
theorem areTransformers_iff {text : List Char} :
    areTransformers text = true ↔ ∃ t : Transformers, t.Valid ∧ t.text = text := by
  constructor
  · intro h
    simp only [areTransformers, Bool.and_eq_true, Bool.or_eq_true, List.isEmpty_iff,
      decide_eq_true_eq, List.all_eq_true, isDelimiter_iff] at h
    obtain ⟨hnumber, hdelimiters⟩ := h
    obtain ⟨reversal, hreversal, hsplit⟩ := exists_reversal (text.dropWhile Char.isDigit)
    refine ⟨⟨text.takeWhile Char.isDigit, reversal, afterReversal (text.dropWhile Char.isDigit)⟩,
      ⟨?_, hnumber.resolve_left, hreversal, hdelimiters⟩, ?_⟩
    · exact fun c hc => List.mem_takeWhile_imp hc
    · rw [Transformers.text, ← hsplit, List.takeWhile_append_dropWhile]
  · rintro ⟨t, h, rfl⟩
    simp only [areTransformers, h.split_text.1, h.split_text.2, h.afterReversal_eq,
      Bool.and_eq_true, Bool.or_eq_true, List.isEmpty_iff, decide_eq_true_eq, List.all_eq_true,
      isDelimiter_iff]
    exact ⟨or_iff_not_imp_left.mpr h.number, h.delimiters⟩

def IsTransformerChar (c : Char) : Prop :=
  c.isAlphanum = true ∨ isDelimiter c = true

theorem Transformers.Valid.isTransformerChar {t : Transformers} (h : t.Valid) {c : Char}
    (hc : c ∈ t.text) : IsTransformerChar c := by
  simp only [Transformers.text, List.mem_append, Option.mem_toList] at hc
  rcases hc with hc | hc | hc
  · exact .inl (by simp [Char.isAlphanum, h.digits c hc])
  · exact .inl (by rcases h.reversal c hc with rfl | rfl <;> decide)
  · exact .inr (isDelimiter_iff.mpr (h.delimiters c hc))

theorem toNat_lt_of_isTransformerChar {c : Char} (h : IsTransformerChar c) : c.toNat < 128 := by
  rcases h with h | h
  · rw [Text.isAlphanum_iff] at h
    omega
  · have delimiters : labelDelimiters.all (·.toNat < 128) = true := by decide
    exact of_decide_eq_true (List.all_eq_true.mp delimiters c (isDelimiter_iff.mp h))

/-! Items at the front of a text -/

namespace Item

/-- What stands between the braces of a macro. -/
theorem isTransformerChar_of_mem_body {letter : Char} {t : Transformers}
    (h : (braced letter t).Valid) {c : Char} (hc : c ∈ letter :: t.text) :
    IsTransformerChar c := by
  rcases List.mem_cons.mp hc with rfl | hc
  · exact .inl (isAlphanum_of_mem_macroLetters h.1)
  · exact h.2.isTransformerChar hc

/-- A valid macro ends at the first closing brace. -/
theorem brace_not_mem_body {letter : Char} {t : Transformers} (h : (braced letter t).Valid) :
    '\x7d' ∉ letter :: t.text := by
  intro hc
  rcases isTransformerChar_of_mem_body h hc with hc | hc <;> exact absurd hc (by decide)

theorem text_ne_nil (i : Item) : i.text ≠ [] := by
  cases i <;> simp [text]

variable {i i' : Item} {s t t' : List Char} {c : Char}

/-- A text that does not start with a percent sign starts with a plain character. -/
theorem eq_plain (hc : c ≠ '%') (heq : i.text ++ t = c :: s) : i = .plain c ∧ t = s := by
  cases i with
  | plain d => simpa [text] using heq
  | _ => exact absurd (List.cons.inj heq).1.symm hc

/-- The character behind a percent sign tells what the item is. -/
theorem percent_cases (h : i.Valid) (heq : i.text ++ t = '%' :: c :: s) :
    (i = .escape c ∧ c ∈ escapeMarks ∧ t = s) ∨
      (i = .shorthand c ∧ c ∈ macroLetters ∧ t = s) ∨
      ∃ letter transformers, i = .braced letter transformers ∧ c = '\x7b' ∧
        letter :: transformers.text ++ '\x7d' :: t = s := by
  cases i with
  | plain d => exact absurd (List.cons.inj heq).1 h.1
  | escape mark =>
    obtain ⟨rfl, rfl⟩ : mark = c ∧ t = s := by simpa [text] using heq
    exact .inl ⟨rfl, h, rfl⟩
  | shorthand letter =>
    obtain ⟨rfl, rfl⟩ : letter = c ∧ t = s := by simpa [text] using heq
    exact .inr (.inl ⟨rfl, h, rfl⟩)
  | braced letter transformers =>
    obtain ⟨rfl, rfl⟩ : '\x7b' = c ∧ letter :: (transformers.text ++ '\x7d' :: t) = s := by
      simpa [text] using heq
    exact .inr (.inr ⟨letter, transformers, rfl, rfl, rfl⟩)

/-- No item is the beginning of another one. -/
theorem text_append_inj (h : i.Valid) (h' : i'.Valid) (heq : i.text ++ t = i'.text ++ t') :
    i = i' ∧ t = t' := by
  have braces : '\x7b' ∉ escapeMarks ∧ '\x7b' ∉ macroLetters := by decide
  -- Behind a percent sign the next character tells marks, letters and the brace apart.
  cases i' with
  | plain c => exact eq_plain h'.1 heq
  | escape mark =>
    rcases percent_cases h heq with ⟨rfl, -, rfl⟩ | ⟨-, hletter, -⟩ | ⟨_, _, -, rfl, -⟩
    · exact ⟨rfl, rfl⟩
    · exact absurd hletter (not_mem_macroLetters_of_mark h')
    · exact absurd h' braces.1
  | shorthand letter =>
    rcases percent_cases h heq with ⟨-, hmark, -⟩ | ⟨rfl, -, rfl⟩ | ⟨_, _, -, rfl, -⟩
    · exact absurd h' (not_mem_macroLetters_of_mark hmark)
    · exact ⟨rfl, rfl⟩
    · exact absurd h' braces.2
  | braced letter transformers =>
    rcases percent_cases h heq with ⟨-, hmark, -⟩ | ⟨-, hletter, -⟩ | ⟨letter', t₁, rfl, -, hbody⟩
    · exact absurd hmark braces.1
    · exact absurd hletter braces.2
    · -- Both bodies end at the first closing brace.
      have hcut := Text.cutFirst_append (brace_not_mem_body h) t
      have hrest : letter' :: t₁.text ++ '\x7d' :: t =
          letter :: transformers.text ++ '\x7d' :: t' := by
        simpa using hbody
      rw [hrest, Text.cutFirst_append (brace_not_mem_body h') t'] at hcut
      obtain ⟨⟨rfl, htext⟩, rfl⟩ : (letter = letter' ∧ transformers.text = t₁.text) ∧ t' = t := by
        simpa using hcut
      exact ⟨by rw [h'.2.eq_of_text_eq h.2 htext], rfl⟩

end Item

theorem spelling_cons (i : Item) (items : List Item) :
    spelling (i :: items) = i.text ++ spelling items :=
  List.flatMap_cons

theorem spelling_append (items items' : List Item) :
    spelling (items ++ items') = spelling items ++ spelling items' :=
  List.flatMap_append

theorem spelling_flatten (blocks : List (List Item)) :
    spelling blocks.flatten = blocks.flatMap spelling := by
  induction blocks with
  | nil => rfl
  | cons block blocks ih => rw [List.flatten_cons, spelling_append, ih, List.flatMap_cons]

/-- A text of the grammar that starts with another one continues its items. -/
theorem exists_items_of_prefix {items items' : List Item} {t : List Char}
    (h : ∀ i ∈ items, i.Valid) (h' : ∀ i ∈ items', i.Valid)
    (heq : spelling items ++ t = spelling items') :
    ∃ rest, items' = items ++ rest ∧ spelling rest = t := by
  induction items generalizing items' with
  | nil => exact ⟨items', rfl, heq.symm⟩
  | cons i items ih =>
    obtain ⟨hi, hitems⟩ := List.forall_mem_cons.mp h
    rw [spelling_cons, List.append_assoc] at heq
    cases items' with
    | nil => exact absurd (List.append_eq_nil_iff.mp heq).1 i.text_ne_nil
    | cons i' items' =>
      obtain ⟨hi', hitems'⟩ := List.forall_mem_cons.mp h'
      rw [spelling_cons] at heq
      -- Both texts start with an item, so it is the same one, and what follows is equal again.
      obtain ⟨rfl, htail⟩ := Item.text_append_inj hi hi' heq
      obtain ⟨rest, rfl, hrest⟩ := ih hitems hitems' htail
      exact ⟨rest, rfl, hrest⟩

/-- Where a first part of a text is in the grammar, an item starts behind it. -/
theorem Spells.exists_item_behind {items front : List Item} {before tail : List Char}
    (h : Spells items (before ++ tail)) (hfront : Spells front before) (hne : tail ≠ []) :
    ∃ (i : Item) (rest : List Item), i.Valid ∧ i.text ++ spelling rest = tail := by
  obtain ⟨rest, rfl, hrest⟩ := exists_items_of_prefix hfront.valid h.valid
    (by rw [hfront.spelling_eq, h.spelling_eq])
  cases rest with
  | nil => exact absurd hrest.symm hne
  | cons i rest => exact ⟨i, rest, h.valid i (by simp), hrest⟩

/-- A text is spelled by one list of items at most, as its start tells the first item. -/
theorem Spells.unique {items items' : List Item} {s : List Char} (h : Spells items s)
    (h' : Spells items' s) : items = items' := by
  obtain ⟨rest, rfl, hrest⟩ := exists_items_of_prefix h.valid h'.valid
    (by rw [List.append_nil, h.spelling_eq, h'.spelling_eq])
  cases rest with
  | nil => rw [List.append_nil]
  | cons i rest =>
    rw [spelling_cons] at hrest
    exact absurd (List.append_eq_nil_iff.mp hrest).1 i.text_ne_nil

/-! Characters inside a macro -/

/-- Inside a macro there are ASCII characters only. -/
theorem toNat_lt_of_standsInMacro {c : Char} {s : List Char} {items : List Item}
    (h : Spells items s) (hc : StandsInMacro c s) : c.toNat < 128 := by
  have marks : escapeMarks.all (·.toNat < 128) = true := by decide
  have braces : '\x7b' ∉ escapeMarks ∧ '\x7b' ∉ macroLetters := by decide
  obtain ⟨front, before, rest, hfront, hs⟩ := hc
  rcases hs with rfl | ⟨body, hbody, rfl⟩
  · obtain ⟨i, items', hi, heq⟩ := h.exists_item_behind hfront (List.cons_ne_nil _ _)
    rcases i.percent_cases hi heq with ⟨-, hmark, -⟩ | ⟨-, hletter, -⟩ | ⟨_, _, -, rfl, -⟩
    · exact of_decide_eq_true (List.all_eq_true.mp marks c hmark)
    · exact toNat_lt_of_isTransformerChar (.inl (isAlphanum_of_mem_macroLetters hletter))
    · decide
  · obtain ⟨i, items', hi, heq⟩ := h.exists_item_behind hfront (List.cons_ne_nil _ _)
    rcases i.percent_cases hi heq with ⟨-, hmark, -⟩ | ⟨-, hletter, -⟩ | ⟨letter, t, rfl, -, hrest⟩
    · exact absurd hmark braces.1
    · exact absurd hletter braces.2
    · rcases Text.eq_or_mem_of_append_eq hbody hrest with rfl | hc
      · decide
      · exact toNat_lt_of_isTransformerChar (Item.isTransformerChar_of_mem_body hi hc)

end SenderPolicy.MacroString
