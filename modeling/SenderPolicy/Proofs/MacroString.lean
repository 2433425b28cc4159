import SenderPolicy.Proofs.HostName
import SenderPolicy.Proofs.MacroScan

/-! Macro strings in either style denote the pieces that they were written from. The
pieces that reading can give are described by `WellFormed`. -/
namespace SenderPolicy.MacroString

def Piece.Valid : Piece → Prop
  | literal text => text ≠ [] ∧ ∀ c ∈ text, c ≠ '%' ∧ c ≠ '\x7d'
  | escape mark => isMark mark = true
  | expansion letter transformers =>
    letter ∈ macroLetters ∧ areTransformers transformers = true

structure WellFormed (ps : List Piece) : Prop where
  valid : ∀ p ∈ ps, p.Valid
  maximal : ps.IsChain Piece.Apart

/-! What reading gives -/

theorem Piece.Covers.valid {p : Piece} {block : List Item} (h : p.Covers block)
    (hblock : ∀ i ∈ block, i.Valid) : p.Valid := by
  cases p with
  | literal text =>
    obtain ⟨hne, rfl⟩ := h
    exact ⟨hne, fun c hc => hblock (.plain c) (List.mem_map_of_mem hc)⟩
  | escape mark =>
    obtain rfl := h
    exact isMark_iff.mpr (hblock _ (List.mem_singleton_self _))
  | expansion letter transformers =>
    rcases h with ⟨rfl, rfl⟩ | ⟨t, rfl, rfl⟩
    · exact ⟨hblock _ (List.mem_singleton_self _), by decide⟩
    · have hbraced := hblock _ (List.mem_singleton_self _)
      exact ⟨hbraced.1, areTransformers_iff.mpr ⟨t, hbraced.2, rfl⟩⟩

theorem valid_of_covers {ps : List Piece} {blocks : List (List Item)}
    (h : List.Forall₂ Piece.Covers ps blocks) (hvalid : ∀ block ∈ blocks, ∀ i ∈ block, i.Valid) :
    ∀ p ∈ ps, p.Valid := by
  induction h with
  | nil => simp
  | cons hp hps ih =>
    obtain ⟨hblock, hblocks⟩ := List.forall_mem_cons.mp hvalid
    exact List.forall_mem_cons.mpr ⟨hp.valid hblock, ih hblocks⟩

/-- What was read is well formed, so it can be written. -/
theorem wellFormed_of_pieces {s : List Char} {ps : List Piece} (h : pieces s = .ok ps) :
    WellFormed ps := by
  obtain ⟨blocks, hblocks⟩ := pieces_eq_ok_iff.mp h
  exact ⟨valid_of_covers hblocks.covers hblocks.valid, hblocks.maximal⟩

/-! What is written is read back -/

theorem spelling_map_plain (text : List Char) : spelling (text.map .plain) = text := by
  simp [spelling, List.flatMap_map, Item.text]

/-- What one piece is written as is spelled in items that read as that piece. -/
theorem Piece.Valid.exists_block {p : Piece} (h : p.Valid) (style : MacroStyle) :
    ∃ block : List Item, (∀ i ∈ block, i.Valid) ∧ spelling block = p.render style ∧
      p.Covers block := by
  cases p with
  | literal text =>
    refine ⟨text.map .plain, ?_, spelling_map_plain text, h.1, rfl⟩
    exact List.forall_mem_map.mpr h.2
  | escape mark =>
    exact ⟨[.escape mark], List.forall_mem_singleton.mpr (isMark_iff.mp h), rfl, rfl⟩
  | expansion letter transformers =>
    -- Braces are left out in one style, and only around a letter that stands alone.
    by_cases hshort : style = .compact ∧ transformers = []
    · refine ⟨[.shorthand letter], List.forall_mem_singleton.mpr h.1, ?_, .inl ⟨hshort.2, rfl⟩⟩
      rw [Piece.render, if_pos hshort]
      rfl
    · obtain ⟨t, ht, rfl⟩ := areTransformers_iff.mp h.2
      refine ⟨[.braced letter t], List.forall_mem_singleton.mpr ⟨h.1, ht⟩, ?_, .inr ⟨t, rfl, rfl⟩⟩
      rw [Piece.render, if_neg hshort]
      simp [spelling, Item.text]

/-- Well-formed pieces decompose their own text, in either style. -/
theorem WellFormed.exists_decomposes {ps : List Piece} (h : WellFormed ps) (style : MacroStyle) :
    ∃ blocks, Decomposes (render style ps) ps blocks := by
  obtain ⟨hvalid, hmaximal⟩ := h
  induction ps with
  | nil => exact ⟨[], by simp, rfl, .nil, .nil⟩
  | cons p ps ih =>
    obtain ⟨hp, hps⟩ := List.forall_mem_cons.mp hvalid
    obtain ⟨block, hblock, hspelling, hcovers⟩ := hp.exists_block style
    obtain ⟨blocks, hblocks⟩ := ih hps (List.isChain_cons.mp hmaximal).2
    refine ⟨block :: blocks, ?_, ?_, .cons hcovers hblocks.covers, hmaximal⟩
    · exact List.forall_mem_cons.mpr ⟨hblock, hblocks.valid⟩
    · rw [List.flatMap_cons, hspelling, hblocks.spelling_eq]
      rfl

/-- Pieces that are written in either style are read back. -/
theorem pieces_render {ps : List Piece} (h : WellFormed ps) (style : MacroStyle) :
    pieces (render style ps) = .ok ps :=
  pieces_eq_ok_iff.mpr (h.exists_decomposes style)

/-! The characters of a macro string -/

def IsMacroChar (c : Char) : Prop :=
  -- The characters of names and of what stands for macros between them.
  HostName.IsNameChar c ∨ isDelimiter c = true ∨ c ∈ ['%', '\x7b', '\x7d']

theorem IsMacroChar.isGraphic {c : Char} (h : IsMacroChar c) : Text.IsGraphic c := by
  have delimiters : (".-+,/_=".toList.all fun d => decide (Text.IsGraphic d)) = true := by decide
  have signs : (['%', '\x7b', '\x7d'].all fun d => decide (Text.IsGraphic d)) = true := by decide
  rcases h with h | h | h
  · exact h.isGraphic
  · exact of_decide_eq_true (List.all_eq_true.mp delimiters c (by simpa [isDelimiter] using h))
  · exact of_decide_eq_true (List.all_eq_true.mp signs c h)

theorem isMacroChar_of_isMark {c : Char} (h : isMark c = true) : IsMacroChar c := by
  simp only [isMark, Bool.or_eq_true, beq_iff_eq] at h
  rcases h with (rfl | rfl) | rfl
  · exact .inr (.inr (by decide))
  · exact .inl (.inr (.inr (.inl rfl)))
  · exact .inl (.inr (.inl rfl))

theorem isMacroChar_of_isTransformerChar {c : Char} (h : IsTransformerChar c) : IsMacroChar c := by
  rcases h with h | h
  · exact .inl (.inl h)
  · exact .inr (.inl h)

/-- An item brings in no characters but those of macros and of the names around them. -/
theorem Item.Valid.isMacroChar {i : Item} (h : i.Valid)
    (hplain : ∀ c, i = .plain c → HostName.IsNameChar c) {c : Char} (hc : c ∈ i.text) :
    IsMacroChar c := by
  have hpercent : IsMacroChar '%' := .inr (.inr (by decide))
  cases i with
  | plain d =>
    obtain rfl := List.mem_singleton.mp hc
    exact .inl (hplain c rfl)
  | escape mark =>
    rcases List.mem_cons.mp hc with rfl | hc
    · exact hpercent
    · rw [List.mem_singleton.mp hc]
      exact isMacroChar_of_isMark (isMark_iff.mpr h)
  | shorthand letter =>
    rcases List.mem_cons.mp hc with rfl | hc
    · exact hpercent
    · rw [List.mem_singleton.mp hc]
      exact .inl (.inl (isAlphanum_of_mem_macroLetters h))
  | braced letter t =>
    have hparts : c = '%' ∨ c = '\x7b' ∨ c ∈ letter :: t.text ∨ c = '\x7d' := by
      simpa [Item.text, or_assoc] using hc
    rcases hparts with rfl | rfl | hc | rfl
    · exact hpercent
    · exact .inr (.inr (by decide))
    · exact isMacroChar_of_isTransformerChar (Item.isTransformerChar_of_mem_body h hc)
    · exact .inr (.inr (by decide))

def Item.outline : Item → List Char
  | plain c => [c]
  | _ => ['x']

theorem outline_flush (literal : List Char) (ps : List Piece) :
    outline (flush literal ps) = literal ++ outline ps := by
  rw [flush]
  split
  next h => rw [h, List.nil_append]
  next => rfl

/-- The outline of a text depends on its items and not on how they are gathered. -/
theorem outline_gather (literal : List Char) (items : List Item) :
    outline (gather literal items) = literal ++ items.flatMap Item.outline := by
  induction items generalizing literal with
  | nil => exact outline_flush literal []
  | cons i items ih =>
    cases i with
    | plain c =>
      rw [gather, ih, List.append_assoc]
      rfl
    | _ =>
      rw [gather, outline_flush, List.flatMap_cons, ← List.nil_append (items.flatMap _), ← ih]
      rfl

/-- Around the macros of a text stand the characters of its outline. -/
theorem isMacroChar_of_pieces {s : List Char} {ps : List Piece} (h : pieces s = .ok ps)
    (houtline : ∀ c ∈ outline ps, HostName.IsNameChar c) : ∀ c ∈ s, IsMacroChar c := by
  obtain ⟨items, hitems, rfl⟩ := pieces_eq_gather_iff.mp h
  rw [outline_gather, List.nil_append] at houtline
  intro c hc
  rw [← hitems.spelling_eq] at hc
  obtain ⟨i, hi, hc⟩ := List.mem_flatMap.mp hc
  refine (hitems.valid i hi).isMacroChar (fun d hd => ?_) hc
  exact houtline d (List.mem_flatMap.mpr ⟨i, hi, hd ▸ List.mem_singleton_self d⟩)

theorem render_ne_nil {style : MacroStyle} {ps : List Piece} (h : WellFormed ps) (hne : ps ≠ []) :
    render style ps ≠ [] := by
  cases ps with
  | nil => exact absurd rfl hne
  | cons p ps =>
    have hvalid := h.valid p List.mem_cons_self
    rw [render, List.flatMap_cons]
    cases p with
    | literal text => simp [Piece.render, hvalid.1]
    | escape mark => simp [Piece.render]
    | expansion letter transformers =>
      rw [Piece.render]
      split <;> simp

/-! One text in both of its spellings -/

def respell (style : MacroStyle) (s : List Char) : Except Defect (List Char) :=
  (pieces s).map (render style)

/-- What the pieces `ps` of the text `s` keep when they are written in either style. -/
structure KeptByRendering (s : List Char) (ps : List Piece) : Prop where
  reread : ∀ style, pieces (render style ps) = .ok ps
  injective : ∀ s' ps', pieces s' = .ok ps' → ∀ style style',
    render style ps = render style' ps' → ps = ps'
  idempotent : ∀ style, respell style s = .ok (render style ps) ∧
    respell style (render style ps) = .ok (render style ps)
  convert_back : ∀ style style',
    (respell style' (render style ps) >>= respell style) = .ok (render style ps)
  outline_eq : ∀ style, (pieces (render style ps)).map outline = (pieces s).map outline
  hasMacros_eq : ∀ style, (pieces (render style ps)).map hasMacros = (pieces s).map hasMacros

/-- The pieces of a text are read again from either spelling, so no spelling loses any. -/
theorem pieces_kept_by_rendering {s : List Char} {ps : List Piece} (h : pieces s = .ok ps) :
    KeptByRendering s ps := by
  have hread : ∀ style, pieces (render style ps) = .ok ps := pieces_render (wellFormed_of_pieces h)
  have hrespell : ∀ style style', respell style' (render style ps) = .ok (render style' ps) := by
    intro style style'
    rw [respell, hread]
    rfl
  exact {
    reread := hread
    injective := by
      intro s' ps' h' style style' heq
      have hread' := pieces_render (wellFormed_of_pieces h') style'
      rw [← heq, hread] at hread'
      exact Except.ok.inj hread'
    idempotent := by
      intro style
      refine ⟨?_, hrespell style style⟩
      rw [respell, h]
      rfl
    convert_back := fun style style' => by rw [hrespell, ok_bind, hrespell]
    outline_eq := fun style => by rw [hread, h]
    hasMacros_eq := fun style => by rw [hread, h] }

/-- Escapes beside a macro, a brace behind a letter, and transformers that are punctuation. -/
theorem pieces_kept_by_rendering_mixed :
    let s := "%i\x7ba%%%\x7bL07R.=\x7d%-%\x7bd\x7d".toList
    let ps := [.expansion 'i' [], .literal ['\x7b', 'a'], .escape '%',
      .expansion 'L' ['0', '7', 'R', '.', '='], .escape '-', .expansion 'd' []]
    pieces s = .ok ps ∧ KeptByRendering s ps ∧
      render .compact ps = "%i\x7ba%%%\x7bL07R.=\x7d%-%d".toList ∧
      render .braced ps = "%\x7bi\x7d\x7ba%%%\x7bL07R.=\x7d%-%\x7bd\x7d".toList := by
  intro s ps
  have h : pieces s = .ok ps := by decide +kernel
  exact ⟨h, pieces_kept_by_rendering h, by decide, by decide⟩

end SenderPolicy.MacroString
