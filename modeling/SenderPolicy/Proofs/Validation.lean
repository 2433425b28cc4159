import SenderPolicy.Proofs.Address.Ipv6
import SenderPolicy.Proofs.HostName
import SenderPolicy.Proofs.MacroString
import SenderPolicy.Validation

/-! Normal forms of validated values: they are words, and validating one again gives
what its first spelling gives, in either macro style. -/
namespace SenderPolicy

namespace Validation

/-- A host name is valid if it is full, and it is written in canonical form. -/
theorem hostName_eq_ok_iff {s v : List Char} :
    hostName s = .ok v ↔ HostName.isFull s = true ∧ v = HostName.canonical s := by
  rw [hostName]
  split
  next h => simp [h, eq_comm]
  next h => simp [h]

/-- A network is valid if it can be read, and it is written in canonical text. -/
theorem network_eq_ok_iff {α : Type} [AddressFamily α] {reason : Reason} {s v : List Char} :
    network α reason s = .ok v ↔ ∃ n : Network α, Network.ofChars? s = some n ∧ v = n.toChars := by
  rw [network]
  split
  next n h => simp [h, eq_comm]
  next h => simp [h]

def isTargetOutline (ps : List MacroString.Piece) : Bool :=
  if MacroString.hasMacros ps then HostName.isLabelList (MacroString.outline ps)
  else HostName.isFull (MacroString.outline ps)

theorem isLabelList_outline {ps : List MacroString.Piece} (h : isTargetOutline ps = true) :
    HostName.isLabelList (MacroString.outline ps) = true := by
  rw [isTargetOutline] at h
  split at h
  · exact h
  · exact HostName.isLabelList_of_isFull h

/-- Once a name with macros is taken to pieces, its outline decides. -/
theorem macroName_of_pieces {s : List Char} {ps : List MacroString.Piece} (style : MacroStyle)
    (h : MacroString.pieces s = .ok ps) : macroName style s =
      if isTargetOutline ps then .ok (MacroString.render style ps) else .error .invalidDomain := by
  rw [macroName]
  simp only [h]
  rfl

/-- A name with macros is valid if its outline is, and it is written in the style asked for. -/
theorem macroName_eq_ok_iff {style : MacroStyle} {s v : List Char} :
    macroName style s = .ok v ↔ ∃ ps, MacroString.pieces s = .ok ps ∧
      isTargetOutline ps = true ∧ v = MacroString.render style ps := by
  cases hs : MacroString.pieces s with
  | error defect => simp [macroName, hs]
  | ok ps =>
    rw [macroName_of_pieces style hs]
    by_cases h : isTargetOutline ps = true
    · simp [h, @eq_comm _ v]
    · simp [h]

/-! Normal forms are words -/

theorem isWord_of_hostName {s v : List Char} (h : hostName s = .ok v) : Text.IsWord v := by
  obtain ⟨hfull, rfl⟩ := hostName_eq_ok_iff.mp h
  exact HostName.isWord_of_isLabelList
    (HostName.isLabelList_of_isFull (HostName.isFull_canonical hfull))

theorem isWord_of_network {α : Type} [AddressFamily α] [LawfulFamily α] {reason : Reason}
    {s v : List Char} (h : network α reason s = .ok v) : Text.IsWord v := by
  obtain ⟨n, -, rfl⟩ := network_eq_ok_iff.mp h
  exact n.isWord_toChars

/-- Accepted names with macros have the characters of macros and of names. -/
theorem isMacroChar_of_accepted {style : MacroStyle} {s v : List Char}
    (h : macroName style s = .ok v) : ∀ c ∈ s, MacroString.IsMacroChar c := by
  obtain ⟨ps, hps, houtline, -⟩ := macroName_eq_ok_iff.mp h
  exact MacroString.isMacroChar_of_pieces hps
    fun c hc => HostName.isNameChar_of_mem (isLabelList_outline houtline) hc

theorem isMacroChar_of_macroName {style : MacroStyle} {s v : List Char}
    (h : macroName style s = .ok v) : ∀ c ∈ v, MacroString.IsMacroChar c := by
  -- The normal form is accepted too, since it has the same pieces.
  obtain ⟨ps, hps, houtline, rfl⟩ := macroName_eq_ok_iff.mp h
  have hread := MacroString.pieces_render (MacroString.wellFormed_of_pieces hps) style
  have haccepted : macroName style (MacroString.render style ps) =
      .ok (MacroString.render style ps) :=
    macroName_eq_ok_iff.mpr ⟨ps, hread, houtline, rfl⟩
  exact isMacroChar_of_accepted haccepted

theorem isWord_of_macroName {style : MacroStyle} {s v : List Char}
    (h : macroName style s = .ok v) : Text.IsWord v := by
  have hchars := isMacroChar_of_macroName h
  obtain ⟨ps, hps, houtline, rfl⟩ := macroName_eq_ok_iff.mp h
  have hne : ps ≠ [] := by
    rintro rfl
    exact HostName.ne_nil_of_isLabelList (isLabelList_outline houtline) rfl
  exact Text.isWord_of_graphic (MacroString.render_ne_nil (MacroString.wellFormed_of_pieces hps) hne)
    fun c hc => (hchars c hc).isGraphic

/-- Whatever is accepted has one word as its normal form. -/
theorem isWord_of_check {style : MacroStyle} {kind : Kind} {s v : List Char}
    (h : check style kind s = .ok v) : Text.IsWord v := by
  cases kind with
  | inclusion | a | mx | redirect => exact isWord_of_hostName h
  | ip4 | ip6 => exact isWord_of_network h
  | existence => exact isWord_of_macroName h
  | all => cases h

/-! Normal forms are checked like the spelling that they came from -/

theorem hostName_hostName {s v : List Char} (h : hostName s = .ok v) :
    hostName v = hostName s := by
  rw [h]
  obtain ⟨hfull, rfl⟩ := hostName_eq_ok_iff.mp h
  exact hostName_eq_ok_iff.mpr
    ⟨HostName.isFull_canonical hfull, (HostName.canonical_canonical hfull).symm⟩

theorem network_network {α : Type} [AddressFamily α] [LawfulFamily α] {reason : Reason}
    {s v : List Char} (h : network α reason s = .ok v) :
    network α reason v = network α reason s := by
  rw [h]
  obtain ⟨n, -, rfl⟩ := network_eq_ok_iff.mp h
  exact network_eq_ok_iff.mpr ⟨n, n.ofChars?_toChars, rfl⟩

/-- A name with macros is checked by its pieces, so neither style nor spelling matters. -/
theorem macroName_macroName {style style' : MacroStyle} {s v : List Char}
    (h : macroName style s = .ok v) : macroName style' v = macroName style' s := by
  -- The normal form has the pieces of the first text, and they decide about all styles.
  obtain ⟨ps, hps, houtline, rfl⟩ := macroName_eq_ok_iff.mp h
  have hread := MacroString.pieces_render (MacroString.wellFormed_of_pieces hps) style
  rw [macroName_of_pieces style' hread, macroName_of_pieces style' hps]

/-- The normal form of a value in one style is checked like the value in another style. -/
theorem check_check {style style' : MacroStyle} {kind : Kind} {s v : List Char}
    (h : check style kind s = .ok v) : check style' kind v = check style' kind s := by
  cases kind with
  | inclusion | a | mx | redirect => exact hostName_hostName h
  | ip4 | ip6 => exact network_network h
  | existence => exact macroName_macroName h
  | all => cases h

/-- No style accepts more than another, and all give the same reasons. -/
theorem check_error_iff {style style' : MacroStyle} {kind : Kind} {s : List Char}
    {reason : Reason} :
    check style kind s = .error reason ↔ check style' kind s = .error reason := by
  cases kind with
  | existence =>
    cases hs : MacroString.pieces s with
    | error defect => simp [check, macroName, hs]
    | ok ps =>
      simp only [check, macroName_of_pieces _ hs]
      split <;> simp
  | _ => exact Iff.rfl

end Validation

theorem validate_eq_ok_iff {style : MacroStyle} {kind : Kind} {raw v : String} :
    validate style kind raw = .ok v ↔
      Validation.check style kind (Text.trim raw.toList) = .ok v.toList := by
  rw [validate, map_eq_ok_iff]
  constructor
  · intro h'
    obtain ⟨s, hs, rfl⟩ := h'
    rwa [String.toList_ofList]
  · intro h
    exact ⟨v.toList, h, String.ofList_toList⟩

theorem validate_eq_error_iff {style : MacroStyle} {kind : Kind} {raw : String} {reason : Reason} :
    validate style kind raw = .error reason ↔
      Validation.check style kind (Text.trim raw.toList) = .error reason := by
  rw [validate, map_eq_error_iff]

theorem isWord_of_validate {style : MacroStyle} {kind : Kind} {raw v : String}
    (h : validate style kind raw = .ok v) : Text.IsWord v.toList :=
  Validation.isWord_of_check (validate_eq_ok_iff.mp h)

theorem validate_of_toList_eq {style : MacroStyle} {kind : Kind} {raw raw' : String}
    (h : Text.trim raw.toList = Text.trim raw'.toList) :
    validate style kind raw = validate style kind raw' := by
  rw [validate, validate, h]

/-- Validating a normal form gives, in any style, what the first spelling gives in it. -/
theorem validate_normal {style : MacroStyle} (style' : MacroStyle) {kind : Kind} {raw v : String}
    (h : validate style kind raw = .ok v) : validate style' kind v = validate style' kind raw := by
  have hcheck := validate_eq_ok_iff.mp h
  rw [validate, validate, (isWord_of_validate h).trim_eq, Validation.check_check hcheck]

/-- Blanks around a value are not looked at. -/
theorem validate_blanks {before after : String}
    (hbefore : ∀ c ∈ before.toList, Text.isBlank c = true)
    (hafter : ∀ c ∈ after.toList, Text.isBlank c = true) (style : MacroStyle) (kind : Kind)
    (raw : String) : validate style kind (before ++ raw ++ after) = validate style kind raw := by
  apply validate_of_toList_eq
  rw [String.toList_append, String.toList_append, Text.trim_blanks hbefore hafter]

theorem validate_error_iff {style style' : MacroStyle} {kind : Kind} {raw : String}
    {reason : Reason} :
    validate style kind raw = .error reason ↔ validate style' kind raw = .error reason := by
  rw [validate_eq_error_iff, validate_eq_error_iff, Validation.check_error_iff]

theorem exists_validate_eq_ok {style : MacroStyle} (style' : MacroStyle) {kind : Kind}
    {raw v : String} (h : validate style kind raw = .ok v) :
    ∃ v', validate style' kind raw = .ok v' := by
  cases h' : validate style' kind raw with
  | ok v' => exact ⟨v', rfl⟩
  | error reason =>
    have herror : validate style kind raw = .error reason := validate_error_iff.mp h'
    rw [h] at herror
    cases herror

/-- A normal form is a word, is its own normal form, and stands for the spelling that it came
from in every style. The style and the blanks around a value decide neither whether it is
accepted nor why it is not. -/
theorem normal_forms_are_fixed (kind : Kind) (raw : String) :
    (∀ style v, validate style kind raw = .ok v →
      Text.IsWord v.toList ∧ validate style kind v = .ok v ∧
        ∀ style', validate style' kind v = validate style' kind raw) ∧
    (∀ style style', ((∃ v, validate style kind raw = .ok v) ↔
        ∃ v, validate style' kind raw = .ok v) ∧
      ∀ reason, validate style kind raw = .error reason ↔
        validate style' kind raw = .error reason) ∧
    ∀ before after : String, (∀ c ∈ before.toList, Text.isBlank c = true) →
      (∀ c ∈ after.toList, Text.isBlank c = true) →
        ∀ style, validate style kind (before ++ raw ++ after) = validate style kind raw := by
  refine ⟨fun style v h => ⟨isWord_of_validate h, ?_, fun style' => validate_normal style' h⟩,
    fun style style' => ⟨⟨?_, ?_⟩, fun reason => validate_error_iff⟩, ?_⟩
  · rw [validate_normal style h, h]
  · intro h
    obtain ⟨v, hv⟩ := h
    exact exists_validate_eq_ok style' hv
  · intro h
    obtain ⟨v, hv⟩ := h
    exact exists_validate_eq_ok style hv
  · intro before after hbefore hafter style
    exact validate_blanks hbefore hafter style kind raw

/-- A macro that is spelled in two ways, next to an escape and to a literal in upper case, with
a line separator in front and a no-break space behind. -/
theorem normal_forms_are_fixed_spellings :
    let raw := "%\x7bi\x7d.%\x7bL1r-\x7d%-._SPF.Example.COM."
    let v := "%i.%\x7bL1r-\x7d%-._SPF.Example.COM."
    let v' := raw
    validate .compact .existence ("\u2028" ++ raw ++ "\u00a0") = .ok v ∧
      Text.IsWord v.toList ∧ validate .compact .existence v = .ok v ∧
      validate .braced .existence v = .ok v' ∧ validate .braced .existence raw = .ok v' := by
  intro raw v v'
  have hcompact : validate .compact .existence raw = .ok v := by decide +kernel
  have hbraced : validate .braced .existence raw = .ok v' := by decide +kernel
  obtain ⟨hnormal, -, hblanks⟩ := normal_forms_are_fixed .existence raw
  obtain ⟨hword, hfixed, hstyles⟩ := hnormal .compact v hcompact
  refine ⟨?_, hword, hfixed, ?_, hbraced⟩
  · have hbefore : "\u2028".toList.all Text.isBlank = true := by decide
    have hafter : "\u00a0".toList.all Text.isBlank = true := by decide
    rw [hblanks "\u2028" "\u00a0" (List.all_eq_true.mp hbefore) (List.all_eq_true.mp hafter),
      hcompact]
  · rw [hstyles .braced, hbraced]

end SenderPolicy
