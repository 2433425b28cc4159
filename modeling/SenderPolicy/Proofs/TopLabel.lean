import SenderPolicy.Proofs.HostNameGrammar

/-! The top label of a name with macros. The main statement says which accepted values end in a
macro or have a proper one: all without macros, and of the others those that end properly, which
is not asked of them. -/
namespace SenderPolicy

namespace HostName

def IsTopLabel (top : List Char) : Prop :=
  top.head? ≠ some '_' ∧ ∃ c ∈ top, c.isDigit = false

/-- The label of a macro is no digit, so only an underscore in front spoils what goes on behind
it. -/
theorem isTopLabel_append_iff {start rest : List Char} (hx : 'x' ∈ start) :
    IsTopLabel (start ++ rest) ↔ start.head? ≠ some '_' := by
  rw [IsTopLabel, List.head?_append_of_ne_nil _ (List.ne_nil_of_mem hx)]
  exact and_iff_left ⟨'x', List.mem_append_left _ hx, by decide⟩

section Labels

variable {name front top : List Char}

/-- The top label is what stands behind the last dot. -/
theorem labels_of_append (h : Text.dropFinal '.' name = front ++ '.' :: top) (htop : '.' ∉ top) :
    labels name = front.splitOn '.' ++ [top] := by
  rw [labels, h, List.splitOn_append_cons_self, List.splitOn_eq_singleton htop]

/-- Of labels the last one decides whether they are a full name, if it is not the only one. -/
theorem isFull_iff_of_append (h : Text.dropFinal '.' name = front ++ '.' :: top)
    (htop : '.' ∉ top) (hlabels : isLabelList name = true) :
    isFull name = true ↔ IsTopLabel top := by
  have hne : front.splitOn '.' ≠ [] := List.splitOn_ne_nil _ _
  have heq := labels_of_append h htop
  rw [isLabelList, heq, Bool.and_eq_true, decide_eq_true_eq, List.all_eq_true] at hlabels
  rw [isFull_iff_of_labels heq]
  constructor
  · exact fun hfull => hfull.2.2.2
  · exact fun hproper =>
      ⟨hlabels.1, fun label hmem => isLabel_iff.mp (hlabels.2 label hmem), hne, hproper⟩

theorem not_isFull_of_dot_not_mem (h : '.' ∉ Text.dropFinal '.' name) : ¬ isFull name = true := by
  have heq : labels name = [] ++ [Text.dropFinal '.' name] := List.splitOn_eq_singleton h
  rw [isFull_iff_of_labels heq]
  exact fun hfull => hfull.2.2.1 rfl

/-- Where the second part of a name has no dot, the top label begins in the first part. -/
theorem isFull_iff_of_append_of_not_mem {start rest : List Char}
    (h : Text.dropFinal '.' name = start ++ rest) (hrest : '.' ∉ rest)
    (hlabels : isLabelList name = true) : isFull name = true ↔
      ∃ front top, start = front ++ '.' :: top ∧ '.' ∉ top ∧ IsTopLabel (top ++ rest) := by
  -- The last dot of the name is the last one of the first part, if there is any.
  cases hcut : Text.cutLast '.' start with
  | none =>
    have hdot := Text.cutLast_eq_none_iff.mp hcut
    refine iff_of_false (not_isFull_of_dot_not_mem ?_) ?_
    · rw [h]
      exact fun hmem => (List.mem_append.mp hmem).elim hdot hrest
    · rintro ⟨front, top, rfl, -⟩
      exact hdot (List.mem_append_right _ List.mem_cons_self)
  | some cut =>
    obtain ⟨hstart, htop⟩ := Text.eq_append_of_cutLast hcut
    have hname : Text.dropFinal '.' name = cut.1 ++ '.' :: (cut.2 ++ rest) := by
      rw [h, hstart, List.append_assoc, List.cons_append]
    have hdot : '.' ∉ cut.2 ++ rest :=
      fun hmem => (List.mem_append.mp hmem).elim htop hrest
    rw [isFull_iff_of_append hname hdot hlabels]
    constructor
    · exact fun hproper => ⟨_, _, hstart, htop, hproper⟩
    · rintro ⟨front, top, hstart', htop', hproper⟩
      obtain ⟨-, rfl⟩ := Text.eq_of_append_eq (hstart.symm.trans hstart') htop htop'
      exact hproper

/-- The top label of a full name is what stands behind the last dot. -/
theorem exists_top_of_isFull (h : isFull name = true) :
    ∃ front top, Text.dropFinal '.' name = front ++ '.' :: top ∧ '.' ∉ top ∧ IsTopLabel top := by
  have htop := (isFull_iff_of_append_of_not_mem (List.append_nil _).symm List.not_mem_nil
    (isLabelList_of_isFull h)).mp h
  simpa only [List.append_nil] using htop

end Labels

end HostName

namespace MacroString

def EndsInMacro (ps : List Piece) : Prop :=
  -- The last piece is a macro or an escape.
  ∃ front p, ps = front ++ [p] ∧ p.isLiteral = false

/-- A name ends properly in a macro, in a literal with a top label of its own, or in a label that
begins in front of a macro, behind a dot and without an underscore. -/
inductive EndsProperly (ps : List Piece) : Prop
  | inMacro : EndsInMacro ps → EndsProperly ps
  | inLiteral {front : List Piece} {text before top : List Char} :
      ps = front ++ [.literal text] → Text.dropFinal '.' text = before ++ '.' :: top →
      '.' ∉ top → HostName.IsTopLabel top → EndsProperly ps
  | acrossMacro {front : List Piece} {text before start : List Char} :
      ps = front ++ [.literal text] → '.' ∉ Text.dropFinal '.' text →
      outline front = before ++ '.' :: start → '.' ∉ start → start.head? ≠ some '_' →
      EndsProperly ps

theorem outline_append (ps ps' : List Piece) : outline (ps ++ ps') = outline ps ++ outline ps' :=
  List.flatMap_append

theorem outline_literal (text : List Char) : outline [.literal text] = text :=
  List.append_nil text

/-- In an outline one letter stands for a macro. -/
theorem outline_of_not_isLiteral {p : Piece} (h : p.isLiteral = false) : outline [p] = ['x'] := by
  cases p with
  | literal text => cases h
  | _ => rfl

section Literal

variable {front : List Piece} {text : List Char}

theorem not_endsInMacro_literal : ¬ EndsInMacro (front ++ [.literal text]) := by
  rintro ⟨front', p, heq, hp⟩
  obtain ⟨-, hlast⟩ := List.append_inj' heq rfl
  obtain rfl := List.singleton_inj.mp hlast
  cases hp

/-- In front of the last literal stands a macro, so a label that begins there goes on in it. -/
theorem x_mem_of_outline_eq (h : WellFormed (front ++ [.literal text])) {before start : List Char}
    (hfront : outline front = before ++ '.' :: start) : 'x' ∈ start := by
  rcases List.eq_nil_or_concat' front with rfl | ⟨front', p, rfl⟩
  · simp [outline] at hfront
  · have hp : p.isLiteral = false := by
      have hapart := (List.isChain_append.mp h.maximal).2.2 p (by simp) (.literal text) rfl
      by_contra hliteral
      exact absurd (hapart (by simpa using hliteral)) (by simp [Piece.isLiteral])
    rw [outline_append, outline_of_not_isLiteral hp] at hfront
    have hlast : ('.' :: start).getLast? = some 'x' := by
      rw [← List.getLast?_append_of_ne_nil before (List.cons_ne_nil _ _), ← hfront,
        List.getLast?_concat]
    rcases List.mem_cons.mp (List.mem_of_getLast? hlast) with hx | hx
    · exact absurd hx (by decide)
    · exact hx

/-- Where the last literal has a dot, the top label is its own. -/
theorem endsProperly_iff_of_dot {before top : List Char}
    (htext : Text.dropFinal '.' text = before ++ '.' :: top) (htop : '.' ∉ top) :
    EndsProperly (front ++ [.literal text]) ↔ HostName.IsTopLabel top := by
  refine ⟨fun h => ?_, fun h => .inLiteral rfl htext htop h⟩
  cases h with
  | inMacro hmacro => exact absurd hmacro not_endsInMacro_literal
  | inLiteral heq htext' htop' hproper =>
    obtain ⟨-, ⟨⟩⟩ := List.append_inj' heq rfl
    rw [htext] at htext'
    obtain ⟨-, rfl⟩ := Text.eq_of_append_eq htext' htop htop'
    exact hproper
  | acrossMacro heq hdot =>
    obtain ⟨-, ⟨⟩⟩ := List.append_inj' heq rfl
    exact absurd (by simp [htext]) hdot

/-- Where it has none, the top label begins in front of a macro, behind the last dot there. -/
theorem endsProperly_iff_of_no_dot (htext : '.' ∉ Text.dropFinal '.' text) :
    EndsProperly (front ++ [.literal text]) ↔
      ∃ before start, outline front = before ++ '.' :: start ∧ '.' ∉ start ∧
        start.head? ≠ some '_' := by
  refine ⟨fun h => ?_, fun h => ?_⟩
  · cases h with
    | inMacro hmacro => exact absurd hmacro not_endsInMacro_literal
    | inLiteral heq htext' =>
      obtain ⟨-, ⟨⟩⟩ := List.append_inj' heq rfl
      exact absurd (by simp [htext']) htext
    | acrossMacro heq _ hfront hstart hhead =>
      obtain ⟨rfl, -⟩ := List.append_inj' heq rfl
      exact ⟨_, _, hfront, hstart, hhead⟩
  · obtain ⟨before, start, hfront, hstart, hhead⟩ := h
    exact .acrossMacro rfl htext hfront hstart hhead

/-- With literal text at the end, the outline is a full name exactly if the value ends properly. -/
theorem isFull_outline_iff_of_literal (h : WellFormed (front ++ [.literal text]))
    (hlabels : HostName.isLabelList (outline (front ++ [.literal text])) = true) :
    HostName.isFull (outline (front ++ [.literal text])) = true ↔
      EndsProperly (front ++ [.literal text]) := by
  have hne : text ≠ [] := (h.valid (.literal text) (by simp)).1
  have hname : Text.dropFinal '.' (outline (front ++ [.literal text])) =
      outline front ++ Text.dropFinal '.' text := by
    rw [outline_append, outline_literal, Text.dropFinal_append _ hne]
  -- The last dot is the literal's own, or what it has is the end of the top label.
  cases hcut : Text.cutLast '.' (Text.dropFinal '.' text) with
  | some cut =>
    obtain ⟨htext, htop⟩ := Text.eq_append_of_cutLast hcut
    rw [htext, ← List.append_assoc] at hname
    rw [HostName.isFull_iff_of_append hname htop hlabels, endsProperly_iff_of_dot htext htop]
  | none =>
    have htext := Text.cutLast_eq_none_iff.mp hcut
    rw [HostName.isFull_iff_of_append_of_not_mem hname htext hlabels,
      endsProperly_iff_of_no_dot htext]
    refine exists_congr fun before => exists_congr fun start => and_congr_right fun hfront =>
      and_congr_right fun _ => ?_
    exact HostName.isTopLabel_append_iff (x_mem_of_outline_eq h hfront)

end Literal

/-- A value ends properly if it ends in a macro or if its outline is a full name. -/
theorem endsProperly_iff {ps : List Piece} (h : WellFormed ps)
    (hlabels : HostName.isLabelList (outline ps) = true) :
    EndsProperly ps ↔ EndsInMacro ps ∨ HostName.isFull (outline ps) = true := by
  rcases List.eq_nil_or_concat' ps with rfl | ⟨front, p, rfl⟩
  · exact absurd rfl (HostName.ne_nil_of_isLabelList hlabels)
  · cases hp : p.isLiteral with
    | false =>
      have hmacro : EndsInMacro (front ++ [p]) := ⟨front, p, rfl, hp⟩
      exact iff_of_true (.inMacro hmacro) (.inl hmacro)
    | true =>
      cases p with
      | literal text =>
        rw [isFull_outline_iff_of_literal h hlabels, or_iff_right not_endsInMacro_literal]
      | _ => cases hp

theorem not_endsInMacro_of_hasMacros {ps : List Piece} (h : hasMacros ps = false) :
    ¬ EndsInMacro ps := by
  rintro ⟨front, p, rfl, hp⟩
  simp [hasMacros, hp] at h

end MacroString

/-- Pieces are accepted if their labels are well-formed and, where none of them is a macro, they
end properly. -/
theorem Validation.isTargetOutline_iff {ps : List MacroString.Piece}
    (h : MacroString.WellFormed ps) : isTargetOutline ps = true ↔
      HostName.isLabelList (MacroString.outline ps) = true ∧
        (MacroString.hasMacros ps = true ∨ MacroString.EndsProperly ps) := by
  cases hmacros : MacroString.hasMacros ps with
  | true => simp [isTargetOutline, hmacros]
  | false =>
    rw [isTargetOutline, hmacros, if_neg Bool.false_ne_true]
    simp only [Bool.false_eq_true, false_or]
    constructor
    · intro hfull
      have hlabels := HostName.isLabelList_of_isFull hfull
      exact ⟨hlabels, (MacroString.endsProperly_iff h hlabels).mpr (.inr hfull)⟩
    · rintro ⟨hlabels, hends⟩
      exact ((MacroString.endsProperly_iff h hlabels).mp hends).resolve_left
        (MacroString.not_endsInMacro_of_hasMacros hmacros)

/-- An accepted value ends in a macro or has the outline of a full name exactly if it ends
properly. Without macros each one does. With a macro anywhere nothing is asked of the end. -/
theorem accepted_names_end_properly_iff {raw : String} {ps : List MacroString.Piece}
    (h : MacroString.pieces (Text.trim raw.toList) = .ok ps) (style : MacroStyle) :
    (∀ v, validate style .existence raw = .ok v ↔
      HostName.isLabelList (MacroString.outline ps) = true ∧
        (MacroString.hasMacros ps = true ∨ MacroString.EndsProperly ps) ∧
        v.toList = MacroString.render style ps) ∧
    ∀ v, validate style .existence raw = .ok v →
      (MacroString.EndsInMacro ps ∨ HostName.isFull (MacroString.outline ps) = true ↔
        MacroString.EndsProperly ps) := by
  have hwf := MacroString.wellFormed_of_pieces h
  have haccepted : ∀ v, validate style .existence raw = .ok v ↔
      Validation.isTargetOutline ps = true ∧ v.toList = MacroString.render style ps := by
    intro v
    rw [validate_eq_ok_iff, Validation.check, Validation.macroName_eq_ok_iff]
    simp [h]
  constructor
  · intro v
    rw [haccepted, Validation.isTargetOutline_iff hwf, and_assoc]
  · intro v hv
    have hlabels := Validation.isLabelList_outline ((haccepted v).mp hv).1
    exact (MacroString.endsProperly_iff hwf hlabels).symm

/-- A top label that begins in front of a macro and goes on behind it, up to a final dot. -/
theorem accepted_names_end_properly_iff_across :
    let raw := "_a.B%\x7bir\x7d7."
    let ps := [.literal "_a.B".toList, .expansion 'i' ['r'], .literal ['7', '.']]
    MacroString.pieces (Text.trim raw.toList) = .ok ps ∧
      validate .compact .existence raw = .ok raw ∧
      HostName.isFull (MacroString.outline ps) = true ∧ MacroString.EndsProperly ps := by
  intro raw ps
  have hps : MacroString.pieces (Text.trim raw.toList) = .ok ps := by decide +kernel
  have haccepted : validate .compact .existence raw = .ok raw := by decide +kernel
  have hfull : HostName.isFull (MacroString.outline ps) = true := by decide
  obtain ⟨-, hends⟩ := accepted_names_end_properly_iff hps .compact
  exact ⟨hps, haccepted, hfull, (hends raw haccepted).mp (.inr hfull)⟩

/-- A number is taken for the top label if a macro stands in front of it. -/
theorem number_at_end_accepted :
    let raw := "%\x7bi\x7d.example.1"
    let ps := [.expansion 'i' [], .literal ".example.1".toList]
    MacroString.pieces (Text.trim raw.toList) = .ok ps ∧
      validate .compact .existence raw = .ok "%i.example.1" ∧
      ¬ (MacroString.EndsInMacro ps ∨ HostName.isFull (MacroString.outline ps) = true) := by
  intro raw ps
  have hfull : ¬ HostName.isFull (MacroString.outline ps) = true := by decide
  have hends : ¬ MacroString.EndsInMacro ps :=
    @MacroString.not_endsInMacro_literal [.expansion 'i' []] ".example.1".toList
  exact ⟨by decide +kernel, by decide +kernel, not_or.mpr ⟨hends, hfull⟩⟩

end SenderPolicy
