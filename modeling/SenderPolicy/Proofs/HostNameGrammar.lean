import SenderPolicy.Proofs.Validation

/-! The grammar of full host names: labels with dots between them. Where a host name is asked
for, a value is accepted exactly if it follows the grammar. -/
namespace SenderPolicy

namespace HostName

structure IsLabelBody (body : List Char) : Prop where
  -- ASCII letters, digits and hyphens, at least one, with no hyphen at either end.
  ne_nil : body ≠ []
  chars : ∀ c ∈ body, c.isAlphanum = true ∨ c = '-'
  head_ne : body.head? ≠ some '-'
  last_ne : body.getLast? ≠ some '-'

structure IsLabelText (label : List Char) : Prop where
  -- A label of 1 to 63 octets, which may start with one underscore.
  one_le_octets : 1 ≤ Text.octets label
  octets_le : Text.octets label ≤ 63
  body : IsLabelBody label ∨ ∃ body, label = '_' :: body ∧ IsLabelBody body

/-- A full name of at most 253 octets: one label or more and then the top label, which has no
underscore in front and is no number. -/
structure IsFullText (name : List Char) : Prop where
  octets_le : Text.octets name ≤ 253
  labels : ∃ labels top, name = ['.'].intercalate (labels ++ [top]) ∧ labels ≠ [] ∧
    (∀ label ∈ labels ++ [top], IsLabelText label) ∧
    top.head? ≠ some '_' ∧ ∃ c ∈ top, c.isDigit = false

/-! Labels -/

theorem labelBody_eq_self {label : List Char} (h : label.head? ≠ some '_') :
    labelBody label = label := by
  unfold labelBody
  split
  next body => exact absurd rfl h
  next => rfl

theorem IsLabelBody.head_ne_underscore {body : List Char} (h : IsLabelBody body) :
    body.head? ≠ some '_' := by
  intro hhead
  rcases h.chars '_' (List.mem_of_head? hhead) with hchar | hchar
  · exact absurd hchar (by decide)
  · exact absurd hchar (by decide)

theorem isLabelBody_labelBody_iff {label : List Char} : IsLabelBody (labelBody label) ↔
    IsLabelBody label ∨ ∃ body, label = '_' :: body ∧ IsLabelBody body := by
  constructor
  · intro h
    by_cases hhead : label.head? = some '_'
    · obtain ⟨body, rfl⟩ := List.head?_eq_some_iff.mp hhead
      exact .inr ⟨body, rfl, h⟩
    · exact .inl (labelBody_eq_self hhead ▸ h)
  · rintro (h | ⟨body, rfl, h⟩)
    · rwa [labelBody_eq_self h.head_ne_underscore]
    · exact h

theorem one_le_octets {s : List Char} (h : s ≠ []) : 1 ≤ Text.octets s := by
  obtain ⟨c, cs, rfl⟩ := List.exists_cons_of_ne_nil h
  have hc := c.utf8Size_pos
  rw [Text.octets_cons]
  omega

/-- The check of labels follows their grammar. -/
theorem isLabel_iff {label : List Char} : isLabel label = true ↔ IsLabelText label := by
  have hbody : isLabel label = true ↔
      Text.octets label ≤ maxLabelOctets ∧ IsLabelBody (labelBody label) := by
    simp only [isLabel, Bool.and_eq_true, decide_eq_true_eq, Bool.not_eq_true', bne_iff_ne,
      List.isEmpty_eq_false_iff, List.all_eq_true, Bool.or_eq_true, beq_iff_eq]
    constructor
    · rintro ⟨⟨⟨⟨hoctets, hne⟩, hhead⟩, hlast⟩, hchars⟩
      exact ⟨hoctets, hne, hchars, hhead, hlast⟩
    · rintro ⟨hoctets, hne, hchars, hhead, hlast⟩
      exact ⟨⟨⟨⟨hoctets, hne⟩, hhead⟩, hlast⟩, hchars⟩
  constructor
  · intro h
    obtain ⟨hoctets, hlabel⟩ := hbody.mp h
    exact ⟨one_le_octets (label_ne_nil h), hoctets, isLabelBody_labelBody_iff.mp hlabel⟩
  · intro h
    exact hbody.mpr ⟨h.octets_le, isLabelBody_labelBody_iff.mpr h.body⟩

/-! Names -/

/-- A full name in terms of its labels, of which there are two at least. -/
theorem isFull_iff_of_labels {name : List Char} {labels : List (List Char)} {top : List Char}
    (h : HostName.labels name = labels ++ [top]) : isFull name = true ↔
      Text.octets (Text.dropFinal '.' name) ≤ maxOctets ∧
        (∀ label ∈ labels ++ [top], IsLabelText label) ∧ labels ≠ [] ∧
        top.head? ≠ some '_' ∧ ∃ c ∈ top, c.isDigit = false := by
  simp only [isFull, isLabelList, h, Bool.and_eq_true, decide_eq_true_eq, List.all_eq_true,
    isLabel_iff, List.length_append, List.length_singleton, List.getLast?_concat, bne_iff_ne,
    Bool.not_eq_true', List.all_eq_false]
  have hlen : 2 ≤ labels.length + 1 ↔ labels ≠ [] := by
    rw [← List.length_pos_iff]
    omega
  simp only [hlen, Bool.not_eq_true, and_assoc]

/-- The top label and the ones in front of it. -/
theorem exists_labels_eq (name : List Char) : ∃ labels top, HostName.labels name = labels ++ [top] :=
  ⟨_, _, (List.dropLast_append_getLast (List.splitOn_ne_nil '.' _)).symm⟩

/-- The check of full names follows the grammar, up to one final dot. -/
theorem isFull_iff {name : List Char} :
    isFull name = true ↔ IsFullText (Text.dropFinal '.' name) := by
  constructor
  · intro h
    obtain ⟨labels, top, hlabels⟩ := exists_labels_eq name
    obtain ⟨hoctets, hall, hne, htop⟩ := (isFull_iff_of_labels hlabels).mp h
    have hname : Text.dropFinal '.' name = ['.'].intercalate (labels ++ [top]) := by
      rw [← hlabels, intercalate_labels]
    exact ⟨hoctets, labels, top, hname, hne, hall, htop⟩
  · rintro ⟨hoctets, labels, top, hname, hne, hall, htop⟩
    -- There are no dots in the labels, so these are the labels that the name is cut into.
    have hdot : ∀ label ∈ labels ++ [top], '.' ∉ label := fun label hmem hdot =>
      (isNameChar_of_mem_label (isLabel_iff.mpr (hall label hmem)) hdot).2 rfl
    have hlabels : HostName.labels name = labels ++ [top] := by
      rw [HostName.labels, hname]
      exact List.splitOn_intercalate '.' hdot (by simp)
    exact (isFull_iff_of_labels hlabels).mpr ⟨hoctets, hall, hne, htop⟩

end HostName

def Kind.TakesHostName (kind : Kind) : Prop :=
  kind = .inclusion ∨ kind = .a ∨ kind = .mx ∨ kind = .redirect

/-- The kinds that take a host name are all checked in one way. -/
theorem Validation.check_hostName {kind : Kind} (h : kind.TakesHostName) (style : MacroStyle)
    (s : List Char) : check style kind s = hostName s := by
  rcases h with rfl | rfl | rfl | rfl <;> rfl

/-- Where a host name is asked for, a value is accepted exactly if it follows the grammar, after
blanks around it and one final dot are dropped. It is then written in lower case. Any other value
is an invalid domain. -/
theorem host_names_follow_grammar {kind : Kind} (h : kind.TakesHostName) (style : MacroStyle)
    (raw : String) :
    let name := Text.dropFinal '.' (Text.trim raw.toList)
    (∀ v, validate style kind raw = .ok v ↔
      HostName.IsFullText name ∧ v.toList = Text.lower name) ∧
    (validate style kind raw = .error .invalidDomain ↔ ¬ HostName.IsFullText name) := by
  intro name
  have hcanonical : HostName.canonical (Text.trim raw.toList) = Text.lower name :=
    (Text.lower_dropFinal (by decide) _).symm
  constructor
  · intro v
    rw [validate_eq_ok_iff, Validation.check_hostName h, Validation.hostName_eq_ok_iff,
      HostName.isFull_iff, hcanonical]
  · rw [validate_eq_error_iff, Validation.check_hostName h, ← HostName.isFull_iff,
      Validation.hostName]
    split
    next hfull => simp [hfull]
    next hfull => simp [hfull]

/-- A service label in front and a final dot, with blanks on both sides. A number at the end is
no top label. -/
theorem host_names_follow_grammar_service :
    let raw := "\u2003_SPF.Ex-1.X2.\n"
    let bad := "_spf.example.10"
    Kind.mx.TakesHostName ∧ validate .compact .mx raw = .ok "_spf.ex-1.x2" ∧
      HostName.IsFullText (Text.dropFinal '.' (Text.trim raw.toList)) ∧
      validate .compact .mx bad = .error .invalidDomain ∧
      ¬ HostName.IsFullText (Text.dropFinal '.' (Text.trim bad.toList)) := by
  intro raw bad
  have hkind : Kind.mx.TakesHostName := .inr (.inr (.inl rfl))
  have hraw : validate .compact .mx raw = .ok "_spf.ex-1.x2" := by decide +kernel
  have hbad : validate .compact .mx bad = .error .invalidDomain := by decide +kernel
  obtain ⟨haccepted, -⟩ := host_names_follow_grammar hkind .compact raw
  obtain ⟨-, hrejected⟩ := host_names_follow_grammar hkind .compact bad
  exact ⟨hkind, hraw, ((haccepted _).mp hraw).1, hbad, hrejected.mp hbad⟩

end SenderPolicy
