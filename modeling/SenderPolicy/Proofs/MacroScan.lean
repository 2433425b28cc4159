import Mathlib.Data.List.Chain
import Mathlib.Data.List.Forall2
import SenderPolicy.Proofs.Except
import SenderPolicy.Proofs.MacroGrammar

/-! The scanner follows the grammar: it takes the texts that the grammar has and no others,
and its pieces are their items, with one literal for each run of plain characters. -/
namespace SenderPolicy.MacroString

def Piece.Covers : Piece → List Item → Prop
  | literal text, items => text ≠ [] ∧ items = text.map .plain
  | escape mark, items => items = [.escape mark]
  | expansion letter transformers, items =>
    (transformers = [] ∧ items = [.shorthand letter]) ∨
      ∃ t : Transformers, t.text = transformers ∧ items = [.braced letter t]

def Piece.Apart (p p' : Piece) : Prop :=
  -- Literals are as long as can be, so a literal is never followed by one.
  p.isLiteral = true → p'.isLiteral = false

structure Decomposes (s : List Char) (ps : List Piece) (blocks : List (List Item)) : Prop where
  -- The text `s` is spelled in `blocks` of items, and each piece of `ps` was read from one.
  valid : ∀ block ∈ blocks, ∀ i ∈ block, i.Valid
  spelling_eq : blocks.flatMap spelling = s
  covers : List.Forall₂ Piece.Covers ps blocks
  maximal : ps.IsChain Piece.Apart

/-- What reading the text `s` comes to by the grammar alone. -/
structure FollowsGrammar (s : List Char) : Prop where
  accepted_iff : (∃ ps, pieces s = .ok ps) ↔ ∃ items, Spells items s
  items_unique : ∀ items items', Spells items s → Spells items' s → items = items'
  pieces_iff : ∀ ps, pieces s = .ok ps ↔ ∃ blocks, Decomposes s ps blocks
  blocks_unique : ∀ ps ps' blocks blocks', Decomposes s ps blocks → Decomposes s ps' blocks' →
    ps = ps' ∧ blocks = blocks'
  refused : (¬∃ items, Spells items s) → ∃ defect, pieces s = .error defect
  refused_inside : ∀ c, StandsInMacro c s → 128 ≤ c.toNat → ∃ defect, pieces s = .error defect

/-! The scanner -/

section Scan

variable {literal rest : List Char}

/-- A plain character goes to the literal text. -/
theorem scan_plain {c : Char} (hpercent : c ≠ '%') (hbrace : c ≠ '\x7d') :
    scan literal (c :: rest) = scan (literal ++ [c]) rest := by
  rw [scan, if_neg hbrace]
  · exact fun h => absurd h hpercent
  · exact fun _ h => absurd h hpercent
  · exact fun _ _ h => absurd h hpercent

/-- An escape ends the literal text. -/
theorem scan_escape {mark : Char} (h : isMark mark = true) :
    scan literal ('%' :: mark :: rest) =
      (do return flush literal (.escape mark :: (← scan [] rest))) := by
  rw [scan, if_pos h]
  rintro rfl
  exact absurd h (by decide)

theorem scan_shorthand {letter : Char} (h : letter ∈ macroLetters) :
    scan literal ('%' :: letter :: rest) =
      (do return flush literal (.expansion letter [] :: (← scan [] rest))) := by
  rw [scan, if_neg (by simp [not_isMark_of_mem_macroLetters h]), checkLetter_eq_ok_iff.mpr h]
  · rfl
  · exact ne_of_mem_macroLetters h (by decide)

/-- A macro in braces ends it too, and keeps its transformers as they are written. -/
theorem scan_braced {letter : Char} {t : Transformers} (h : (Item.braced letter t).Valid) :
    scan literal ((Item.braced letter t).text ++ rest) =
      (do return flush literal (.expansion letter t.text :: (← scan [] rest))) := by
  have hcut := Text.cutFirst_append (Item.brace_not_mem_body h) rest
  have hbody : ofBody (letter :: t.text) = .ok (.expansion letter t.text) := by
    rw [ofBody, checkLetter_eq_ok_iff.mpr h.1, ok_bind,
      if_pos (areTransformers_iff.mpr ⟨t, h.2, rfl⟩)]
  have htext : (Item.braced letter t).text ++ rest =
      '%' :: '\x7b' :: (letter :: t.text ++ '\x7d' :: rest) := by
    simp [Item.text]
  rw [htext, scan]
  split
  next hnone => exact absurd (hcut.symm.trans hnone) (by simp)
  next body rest' hsome =>
    obtain ⟨rfl, rfl⟩ : letter :: t.text = body ∧ rest = rest' := by
      simpa using hcut.symm.trans hsome
    rw [hbody]
    rfl

end Scan

def gather (literal : List Char) : List Item → List Piece
  -- The pieces of items, where `literal` was read since the last macro.
  | [] => flush literal []
  | .plain c :: items => gather (literal ++ [c]) items
  | .escape mark :: items => flush literal (.escape mark :: gather [] items)
  | .shorthand letter :: items => flush literal (.expansion letter [] :: gather [] items)
  | .braced letter t :: items => flush literal (.expansion letter t.text :: gather [] items)

/-- By induction on the items, the scanner gathers valid items as the grammar has them. -/
theorem scan_spelling {items : List Item} (h : ∀ i ∈ items, i.Valid) (literal : List Char) :
    scan literal (spelling items) = .ok (gather literal items) := by
  induction items generalizing literal with
  | nil => rw [spelling, List.flatMap_nil, scan, gather]
  | cons i items ih =>
    obtain ⟨hi, hitems⟩ := List.forall_mem_cons.mp h
    rw [spelling_cons]
    cases i with
    | plain c => exact (scan_plain hi.1 hi.2).trans (ih hitems _)
    | escape mark =>
      rw [Item.text, List.cons_append, List.cons_append, List.nil_append,
        scan_escape (isMark_iff.mpr hi), ih hitems]
      rfl
    | shorthand letter =>
      rw [Item.text, List.cons_append, List.cons_append, List.nil_append, scan_shorthand hi,
        ih hitems]
      rfl
    | braced letter t =>
      rw [scan_braced hi, ih hitems]
      rfl

/-- What is accepted between braces is a letter with valid transformers. -/
theorem exists_braced_of_ofBody {body : List Char} {p : Piece} (h : ofBody body = .ok p) :
    ∃ letter t, body = letter :: t.text ∧ p = .expansion letter t.text ∧
      (Item.braced letter t).Valid := by
  -- The letter comes first, and an empty body has none.
  cases body with
  | nil => cases h
  | cons letter transformers =>
    obtain ⟨⟨⟩, hletter, h⟩ := bind_eq_ok_iff.mp h
    split at h
    next hvalid =>
      obtain ⟨t, ht, rfl⟩ := areTransformers_iff.mp hvalid
      cases h
      exact ⟨letter, t, rfl, rfl, checkLetter_eq_ok_iff.mp hletter, ht⟩
    next => cases h

theorem Spells.cons {i : Item} {items : List Item} {s : List Char} (hi : i.Valid)
    (h : Spells items s) : Spells (i :: items) (i.text ++ s) :=
  ⟨List.forall_mem_cons.mpr ⟨hi, h.valid⟩, by rw [spelling_cons, h.spelling_eq]⟩

/-- What the scanner accepts is spelled by valid items, which it has gathered. -/
theorem exists_items_of_scan {literal s : List Char} {ps : List Piece}
    (h : scan literal s = .ok ps) : ∃ items, Spells items s ∧ ps = gather literal items := by
  -- The induction follows the scanner's own recursion, and its literal moves along with it.
  -- Where the text is refused there is nothing to show; elsewhere one item is added.
  fun_induction scan literal s generalizing ps with
  | case1 literal =>
    cases h
    exact ⟨[], ⟨by simp, rfl⟩, rfl⟩
  | case2 => cases h
  | case3 => cases h
  | case4 literal rest body rest' hcut ih =>
    obtain ⟨piece, hpiece, h⟩ := bind_eq_ok_iff.mp h
    obtain ⟨tail, htail, h⟩ := bind_eq_ok_iff.mp h
    cases h
    obtain ⟨letter, t, rfl, rfl, hvalid⟩ := exists_braced_of_ofBody hpiece
    obtain ⟨items, hitems, rfl⟩ := ih htail
    rw [(Text.eq_append_of_cutFirst hcut).1]
    exact ⟨.braced letter t :: items, by simpa [Item.text] using hitems.cons hvalid, rfl⟩
  | case5 literal c rest hbrace hmark ih =>
    obtain ⟨tail, htail, h⟩ := bind_eq_ok_iff.mp h
    cases h
    obtain ⟨items, hitems, rfl⟩ := ih htail
    exact ⟨.escape c :: items, hitems.cons (isMark_iff.mp hmark), rfl⟩
  | case6 literal c rest hbrace hmark ih =>
    obtain ⟨⟨⟩, hletter, h⟩ := bind_eq_ok_iff.mp h
    obtain ⟨tail, htail, h⟩ := bind_eq_ok_iff.mp h
    cases h
    obtain ⟨items, hitems, rfl⟩ := ih htail
    exact ⟨.shorthand c :: items, hitems.cons (checkLetter_eq_ok_iff.mp hletter), rfl⟩
  | case7 => cases h
  | case8 literal c rest hend _ hother hbrace ih =>
    -- The cases before this one have taken every percent sign.
    have hpercent : c ≠ '%' := by
      intro hc
      cases rest with
      | nil => exact hend hc rfl
      | cons d rest => exact hother d rest hc rfl
    obtain ⟨items, hitems, rfl⟩ := ih h
    exact ⟨.plain c :: items, hitems.cons ⟨hpercent, hbrace⟩, rfl⟩

theorem pieces_eq_gather_iff {s : List Char} {ps : List Piece} :
    pieces s = .ok ps ↔ ∃ items, Spells items s ∧ ps = gather [] items := by
  constructor
  · exact exists_items_of_scan
  · rintro ⟨items, h, rfl⟩
    rw [pieces, ← h.spelling_eq, scan_spelling h.valid]

/-! Pieces and blocks -/

def Groups (items : List Item) (ps : List Piece) : Prop :=
  ∃ blocks : List (List Item), blocks.flatten = items ∧ List.Forall₂ Piece.Covers ps blocks ∧
    ps.IsChain Piece.Apart

theorem Groups.nil : Groups [] [] :=
  ⟨[], rfl, .nil, .nil⟩

theorem Groups.cons {p : Piece} {block items : List Item} {ps : List Piece} (hp : p.Covers block)
    (hapart : ∀ p' ∈ ps.head?, p.Apart p') (h : Groups items ps) :
    Groups (block ++ items) (p :: ps) := by
  obtain ⟨blocks, rfl, hcovers, hmaximal⟩ := h
  exact ⟨block :: blocks, List.flatten_cons, .cons hp hcovers,
    List.isChain_cons.mpr ⟨hapart, hmaximal⟩⟩

/-- Literal text is covered by one piece, or by none if it is empty. -/
theorem Groups.add_literal {literal : List Char} {items : List Item} {ps : List Piece}
    (hhead : ∀ p ∈ ps.head?, p.isLiteral = false) (h : Groups items ps) :
    Groups (literal.map .plain ++ items) (flush literal ps) := by
  by_cases hliteral : literal = []
  · rwa [hliteral, flush, if_pos rfl]
  · rw [flush, if_neg hliteral]
    exact .cons ⟨hliteral, rfl⟩ (fun p hp _ => hhead p hp) h

/-- A macro ends the literal text in front of it, whatever follows. -/
theorem Groups.add_expanded {literal : List Char} {i : Item} {items : List Item} {p : Piece}
    {ps : List Piece} (hp : p.Covers [i]) (hexpanded : p.isLiteral = false) (h : Groups items ps) :
    Groups (literal.map .plain ++ i :: items) (flush literal (p :: ps)) := by
  have hcons : Groups ([i] ++ items) (p :: ps) := .cons hp (by simp [Piece.Apart, hexpanded]) h
  exact .add_literal (by simp [hexpanded]) hcons

/-- Gathering divides the items among the pieces, with no two literal pieces side by side. -/
theorem groups_gather (literal : List Char) (items : List Item) :
    Groups (literal.map .plain ++ items) (gather literal items) := by
  -- The literal is general because plain characters move into it, and macros empty it.
  induction items generalizing literal with
  | nil => exact .add_literal (by simp) .nil
  | cons i items ih =>
    have htail : Groups items (gather [] items) := ih []
    cases i with
    | plain c =>
      rw [gather]
      simpa using ih (literal ++ [c])
    | escape mark => exact .add_expanded rfl rfl htail
    | shorthand letter => exact .add_expanded (.inl ⟨rfl, rfl⟩) rfl htail
    | braced letter t => exact .add_expanded (.inr ⟨t, rfl, rfl⟩) rfl htail

theorem gather_append_plain (literal text : List Char) (items : List Item) :
    gather literal (text.map .plain ++ items) = gather (literal ++ text) items := by
  induction text generalizing literal with
  | nil => rw [List.map_nil, List.nil_append, List.append_nil]
  | cons c text ih =>
    rw [List.map_cons, List.cons_append, gather, ih, List.append_assoc, List.singleton_append]

/-- A literal ends where a macro starts. -/
theorem gather_eq_flush {literal : List Char} {ps : List Piece} {blocks : List (List Item)}
    (hcovers : List.Forall₂ Piece.Covers ps blocks) (hhead : ∀ p ∈ ps.head?, p.isLiteral = false) :
    gather literal blocks.flatten = flush literal (gather [] blocks.flatten) := by
  cases hcovers with
  | nil => rfl
  | @cons p block ps blocks hp hcovers =>
    cases p with
    | literal text => exact absurd (hhead _ rfl) (by simp [Piece.isLiteral])
    | escape mark =>
      rw [hp]
      rfl
    | expansion letter transformers =>
      rcases hp with ⟨-, rfl⟩ | ⟨t, -, rfl⟩ <;> rfl

/-- A maximal division of the items can only be the one that gathering gives. -/
theorem gather_flatten {ps : List Piece} {blocks : List (List Item)}
    (hcovers : List.Forall₂ Piece.Covers ps blocks) (hmaximal : ps.IsChain Piece.Apart) :
    gather [] blocks.flatten = ps := by
  induction hcovers with
  | nil => rfl
  | @cons p block ps blocks hp hcovers ih =>
    obtain ⟨hapart, hrest⟩ := List.isChain_cons.mp hmaximal
    rw [List.flatten_cons]
    cases p with
    | literal text =>
      -- The characters are gathered first. Being maximal, the literal ends with them.
      obtain ⟨hne, rfl⟩ := hp
      rw [gather_append_plain, List.nil_append,
        gather_eq_flush hcovers fun p hp => hapart p hp rfl, ih hrest, flush, if_neg hne]
    | escape mark =>
      obtain rfl := hp
      rw [List.singleton_append, gather, ih hrest, flush, if_pos rfl]
    | expansion letter transformers =>
      rcases hp with ⟨rfl, rfl⟩ | ⟨t, rfl, rfl⟩
      all_goals rw [List.singleton_append, gather, ih hrest, flush, if_pos rfl]

/-- The pieces alone tell how many items each block has. -/
theorem Piece.Covers.length_eq {p : Piece} {block block' : List Item} (h : p.Covers block)
    (h' : p.Covers block') : block.length = block'.length := by
  cases p with
  | literal text => rw [h.2, h'.2]
  | escape mark =>
    obtain rfl := h
    obtain rfl := h'
    rfl
  | expansion letter transformers =>
    rcases h with ⟨-, rfl⟩ | ⟨t, -, rfl⟩ <;> rcases h' with ⟨-, rfl⟩ | ⟨t', -, rfl⟩ <;> rfl

/-- Pieces cover a text in one way only, as each tells the length of its block. -/
theorem eq_of_flatten_eq {ps : List Piece} {blocks blocks' : List (List Item)}
    (h : List.Forall₂ Piece.Covers ps blocks) (h' : List.Forall₂ Piece.Covers ps blocks')
    (hflatten : blocks.flatten = blocks'.flatten) : blocks = blocks' := by
  induction h generalizing blocks' with
  | nil =>
    cases h'
    rfl
  | @cons p block ps blocks hp hps ih =>
    cases h' with
    | @cons _ block' _ blocks' hp' hps' =>
      rw [List.flatten_cons, List.flatten_cons] at hflatten
      obtain ⟨rfl, htail⟩ := List.append_inj hflatten (hp.length_eq hp')
      rw [ih hps' htail]

/-! Reading follows the grammar -/

section Decomposes

variable {s : List Char} {ps ps' : List Piece} {blocks blocks' : List (List Item)}

theorem Decomposes.spells (h : Decomposes s ps blocks) : Spells blocks.flatten s where
  valid := by
    intro i hi
    obtain ⟨block, hblock, hi⟩ := List.mem_flatten.mp hi
    exact h.valid block hblock i hi
  spelling_eq := by rw [spelling_flatten, h.spelling_eq]

/-- Reading gives the pieces into which the text decomposes by the grammar. -/
theorem pieces_eq_ok_iff : pieces s = .ok ps ↔ ∃ blocks, Decomposes s ps blocks := by
  rw [pieces_eq_gather_iff]
  constructor
  · rintro ⟨items, h, rfl⟩
    have hgroups : Groups items (gather [] items) := groups_gather [] items
    obtain ⟨blocks, rfl, hcovers, hmaximal⟩ := hgroups
    refine ⟨blocks, ?_, ?_, hcovers, hmaximal⟩
    · intro block hblock i hi
      exact h.valid i (List.mem_flatten.mpr ⟨block, hblock, hi⟩)
    · rw [← spelling_flatten, h.spelling_eq]
  · rintro ⟨blocks, h⟩
    exact ⟨blocks.flatten, h.spells, (gather_flatten h.covers h.maximal).symm⟩

/-- A text decomposes in one way at most. -/
theorem Decomposes.unique (h : Decomposes s ps blocks) (h' : Decomposes s ps' blocks') :
    ps = ps' ∧ blocks = blocks' := by
  have hflatten : blocks.flatten = blocks'.flatten := h.spells.unique h'.spells
  obtain rfl : ps = ps' := by
    rw [← gather_flatten h.covers h.maximal, hflatten, gather_flatten h'.covers h'.maximal]
  exact ⟨rfl, eq_of_flatten_eq h.covers h'.covers hflatten⟩

end Decomposes

/-- Macro strings are the texts of the grammar, and each is taken apart in the one way there is. -/
theorem pieces_follow_grammar (s : List Char) : FollowsGrammar s where
  accepted_iff := by
    simp only [pieces_eq_gather_iff]
    exact ⟨fun ⟨_, items, h, _⟩ => ⟨items, h⟩, fun ⟨items, h⟩ => ⟨_, items, h, rfl⟩⟩
  items_unique _ _ h h' := h.unique h'
  pieces_iff _ := pieces_eq_ok_iff
  blocks_unique _ _ _ _ h h' := h.unique h'
  refused := by
    intro h
    cases hs : pieces s with
    | error defect => exact ⟨defect, rfl⟩
    | ok ps =>
      obtain ⟨items, hitems, -⟩ := pieces_eq_gather_iff.mp hs
      exact absurd ⟨items, hitems⟩ h
  refused_inside := by
    intro c hc hlarge
    cases hs : pieces s with
    | error defect => exact ⟨defect, rfl⟩
    | ok ps =>
      obtain ⟨items, hitems, -⟩ := pieces_eq_gather_iff.mp hs
      exact absurd (toNat_lt_of_standsInMacro hitems hc) (by omega)

example : pieces "é%_%\x7bD2r.\x7d\x7b".toList =
    .ok [.literal ['é'], .escape '_', .expansion 'D' ['2', 'r', '.'], .literal ['\x7b']] := by
  decide +kernel

example : pieces "%\x7bd2é\x7d".toList = .error (.invalidTransformer ['2', 'é']) := by
  decide +kernel

end SenderPolicy.MacroString
