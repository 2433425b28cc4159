import SenderPolicy.Proofs.RecordText

/-! Records are read term by term. What a term adds does not depend on the terms in front of
it, and of the terms that can be read only a modifier that is there already is refused. So
records can be joined, modifiers may stand anywhere among the directives, and names may be
written in any case. -/
namespace SenderPolicy.Record

/-- A record is given by its directives and its modifiers. -/
theorem eq_of_valueOf? {r r' : Record} (hdirectives : r.directives = r'.directives)
    (hvalues : ∀ m, (r.valueOf? m).toList = (r'.valueOf? m).toList) : r = r' := by
  have hvalue (m : Modifier) : r.valueOf? m = r'.valueOf? m := by
    apply Option.ext
    intro text
    rw [← Option.mem_toList, hvalues m, Option.mem_toList]
  have hredirect : r.redirect? = r'.redirect? := hvalue .redirect
  have hexplanation : r.explanation? = r'.explanation? := hvalue .explanation
  cases r
  cases r'
  exact (mk.injEq ..).mpr ⟨hdirectives, hredirect, hexplanation⟩

def HasTerms (text : String) (terms : List (List Char)) : Prop :=
  -- The text is the version tag in any case and these terms, with blanks between them.
  ∃ tag, Text.sameLetters tag versionTag.toList = true ∧ Text.words text.toList = tag :: terms

/-- Reading a record is reading its terms. -/
theorem ofText_of_hasTerms {text : String} {terms : List (List Char)} (h : HasTerms text terms) :
    ofText text = ofTerms terms := by
  obtain ⟨tag, htag, hwords⟩ := h
  rw [ofText, hwords]
  exact if_pos htag

/-! What a term adds -/

def termDirective? (term : List Char) : Option Directive :=
  match modifier? term with
  | some _ => none
  | none => (readDirective term).toOption

def termValue? (m : Modifier) (term : List Char) : Option String :=
  match modifier? term with
  | some (name, value) =>
    if String.ofList (Text.lower name) = m.name then some (String.ofList value) else none
  | none => none

/-- A term that can stand in a record: a directive, or a modifier with a value that it
accepts, of which there is no question if the modifier is not kept. -/
def IsReadable (term : List Char) : Prop :=
  match modifier? term with
  | some (name, value) => ∀ m : Modifier, String.ofList (Text.lower name) = m.name → m.Accepts value
  | none => ∃ d, readDirective term = .ok d

structure Extends (r : Record) (terms : List (List Char)) (r' : Record) : Prop where
  -- The second record is the first one with these terms behind it.
  readable : ∀ term ∈ terms, IsReadable term
  directives_eq : r'.directives = r.directives ++ terms.filterMap termDirective?
  values_eq : ∀ m, (r'.valueOf? m).toList = (r.valueOf? m).toList ++ terms.filterMap (termValue? m)

theorem Extends.refl (r : Record) : r.Extends [] r where
  readable := List.forall_mem_nil _
  directives_eq := by simp
  values_eq := by simp

theorem Extends.trans {r s t : Record} {front back : List (List Char)} (h : r.Extends front s)
    (h' : s.Extends back t) : r.Extends (front ++ back) t where
  readable := List.forall_mem_append.mpr ⟨h.readable, h'.readable⟩
  directives_eq := by
    rw [h'.directives_eq, h.directives_eq, List.filterMap_append, List.append_assoc]
  values_eq m := by
    rw [h'.values_eq, h.values_eq, List.filterMap_append, List.append_assoc]

/-- One record at most comes from a record and the terms behind it. -/
theorem Extends.unique {r s s' : Record} {terms : List (List Char)} (h : r.Extends terms s)
    (h' : r.Extends terms s') : s = s' := by
  apply eq_of_valueOf?
  · rw [h.directives_eq, h'.directives_eq]
  · intro m
    rw [h.values_eq, h'.values_eq]

/-- A modifier stands in a record once at most. -/
theorem Extends.length_le_one {r s : Record} {terms : List (List Char)} (h : r.Extends terms s)
    (m : Modifier) : ((r.valueOf? m).toList ++ terms.filterMap (termValue? m)).length ≤ 1 := by
  rw [← h.values_eq]
  cases s.valueOf? m <;> simp

/-! One term -/

theorem extends_of_addModifier {r r' : Record} {term name value : List Char}
    (hterm : modifier? term = some (name, value)) (h : r.addModifier name value = .ok r') :
    r.Extends [term] r' := by
  have hdirective : termDirective? term = none := by simp [termDirective?, hterm]
  rcases addModifier_eq_ok_iff.mp h with ⟨m, hname, hfree, haccepts, rfl⟩ | ⟨hunknown, rfl⟩
  · have hsame (m' : Modifier) : String.ofList (Text.lower name) = m'.name ↔ m' = m := by
      rw [hname, Modifier.name_injective.eq_iff, eq_comm]
    refine ⟨?_, by simp [hdirective], ?_⟩
    · simpa [IsReadable, hterm, hsame] using haccepts
    · intro m'
      by_cases hm : m' = m <;> simp [termValue?, hterm, hsame, hm, hfree]
  · refine ⟨?_, by simp [hdirective], ?_⟩
    · simp [IsReadable, hterm, hunknown]
    · simp [termValue?, hterm, hunknown]

/-- A term that is accepted adds what it says and nothing else. -/
theorem extends_of_addTerm {r r' : Record} {term : List Char} (h : r.addTerm term = .ok r') :
    r.Extends [term] r' := by
  rcases addTerm_eq_ok_iff.mp h with ⟨name, value, hterm, h⟩ | ⟨hterm, d, hd, rfl⟩
  · exact extends_of_addModifier hterm h
  · refine ⟨?_, ?_, ?_⟩
    · simpa [IsReadable, hterm] using ⟨d, hd⟩
    · simp [termDirective?, hterm, hd, Except.toOption]
    · intro m
      cases m <;> simp [valueOf?, termValue?, hterm]

/-- A term that can be read is refused only as a repetition. -/
theorem addTerm_eq_error {r : Record} {term : List Char} {e : RecordError}
    (hterm : IsReadable term) (h : r.addTerm term = .error e) :
    ∃ m : Modifier, e = .duplicateModifier m.name ∧ (r.valueOf? m).isSome = true ∧
      (termValue? m term).isSome = true := by
  rw [IsReadable] at hterm
  rw [addTerm] at h
  split at h
  next name value hmodifier =>
    rw [hmodifier] at hterm
    -- A modifier that is not kept is never refused, and one that is kept only if it is there.
    by_cases hknown : ∃ m : Modifier, String.ofList (Text.lower name) = m.name
    · obtain ⟨m, hname⟩ := hknown
      have htaken : (r.valueOf? m).isSome = true := by
        rw [Option.isSome_iff_ne_none]
        intro hfree
        rw [(addModifier_of_free hname hfree).mpr ⟨hterm m hname, rfl⟩] at h
        cases h
      rw [addModifier_of_taken hname htaken] at h
      exact ⟨m, (Except.error.inj h).symm, htaken, by simp [termValue?, hmodifier, hname]⟩
    · rw [addModifier_of_unknown (not_exists.mp hknown)] at h
      cases h
  next hmodifier =>
    rw [hmodifier] at hterm
    obtain ⟨d, hd⟩ := hterm
    rw [hd] at h
    cases h

/-! Many terms -/

/-- Terms that are accepted one by one add what they say. -/
theorem extends_of_foldlM {terms : List (List Char)} {r r' : Record}
    (h : terms.foldlM addTerm r = .ok r') : r.Extends terms r' := by
  induction terms generalizing r with
  | nil =>
    obtain rfl := Except.ok.inj h
    exact .refl r
  | cons term terms ih =>
    rw [List.foldlM_cons] at h
    obtain ⟨next, hnext, h⟩ := bind_eq_ok_iff.mp h
    exact (extends_of_addTerm hnext).trans (ih h)

/-- Terms that can be read are refused only where a modifier would stand twice. -/
theorem foldlM_eq_error {terms : List (List Char)} {r : Record} {e : RecordError}
    (hterms : ∀ term ∈ terms, IsReadable term) (h : terms.foldlM addTerm r = .error e) :
    ∃ m : Modifier, e = .duplicateModifier m.name ∧
      1 < ((r.valueOf? m).toList ++ terms.filterMap (termValue? m)).length := by
  induction terms generalizing r with
  | nil => cases h
  | cons term terms ih =>
    obtain ⟨hterm, hterms⟩ := List.forall_mem_cons.mp hterms
    rw [List.foldlM_cons] at h
    cases hnext : r.addTerm term with
    | error e' =>
      rw [hnext] at h
      obtain rfl : e' = e := Except.error.inj h
      obtain ⟨m, hm, hold, hnew⟩ := addTerm_eq_error hterm hnext
      obtain ⟨old, hold⟩ := Option.isSome_iff_exists.mp hold
      obtain ⟨new, hnew⟩ := Option.isSome_iff_exists.mp hnew
      exact ⟨m, hm, by simp [hold, hnew]⟩
    | ok next =>
      rw [hnext] at h
      obtain ⟨m, hm, hlength⟩ := ih hterms h
      refine ⟨m, hm, ?_⟩
      -- What the first term adds has moved into the record.
      rwa [(extends_of_addTerm hnext).values_eq, List.append_assoc, ← List.filterMap_append,
        List.singleton_append] at hlength

/-- Terms are accepted behind a record exactly if each can be read and none repeats a
modifier, and then the record holds all that they say. -/
theorem foldlM_addTerm_eq_ok_iff {terms : List (List Char)} {r r' : Record} :
    terms.foldlM addTerm r = .ok r' ↔ r.Extends terms r' := by
  constructor
  · exact extends_of_foldlM
  · intro h
    cases hresult : terms.foldlM addTerm r with
    | ok r'' => rw [(extends_of_foldlM hresult).unique h]
    | error e =>
      obtain ⟨m, -, hlength⟩ := foldlM_eq_error h.readable hresult
      have := h.length_le_one m
      omega

theorem ofTerms_eq_ok_iff {terms : List (List Char)} {r : Record} :
    ofTerms terms = .ok r ↔ empty.Extends terms r :=
  foldlM_addTerm_eq_ok_iff

/-! Records one behind the other -/

def join (r s : Record) : Record :=
  -- The directives of both records, and each modifier from the record that has it.
  ⟨r.directives ++ s.directives, r.redirect?.or s.redirect?, r.explanation?.or s.explanation?⟩

def Share (r s : Record) (m : Modifier) : Prop :=
  (r.valueOf? m).isSome = true ∧ (s.valueOf? m).isSome = true

theorem share_iff {r s : Record} {m : Modifier} :
    r.Share s m ↔ 1 < ((r.valueOf? m).toList ++ (s.valueOf? m).toList).length := by
  rw [Share]
  cases r.valueOf? m <;> cases s.valueOf? m <;> simp

/-- Records that do not share a modifier lose no value of it when they are joined. -/
theorem toList_valueOf?_join {r s : Record} {m : Modifier} (h : ¬ r.Share s m) :
    ((r.join s).valueOf? m).toList = (r.valueOf? m).toList ++ (s.valueOf? m).toList := by
  have hor : (r.join s).valueOf? m = (r.valueOf? m).or (s.valueOf? m) := by
    cases m <;> rfl
  rw [Share] at h
  rw [hor]
  cases hr : r.valueOf? m with
  | none => simp
  | some text =>
    have hs : s.valueOf? m = none := by simpa [hr] using h
    simp [hs]

theorem toList_valueOf?_empty (m : Modifier) : (empty.valueOf? m).toList = [] := by
  cases m <;> rfl

section Join

variable {front back : List (List Char)} {r s : Record}

/-- The terms of two records give the values of both. -/
theorem values_append (hr : empty.Extends front r) (hs : empty.Extends back s) (m : Modifier) :
    (front ++ back).filterMap (termValue? m) =
      (r.valueOf? m).toList ++ (s.valueOf? m).toList := by
  rw [hr.values_eq, hs.values_eq, toList_valueOf?_empty, List.filterMap_append, List.nil_append,
    List.nil_append]

/-- Terms of records that share no modifier are read as the joined record. -/
theorem ofTerms_append_of_not_share (hr : ofTerms front = .ok r) (hs : ofTerms back = .ok s)
    (h : ∀ m, ¬ r.Share s m) : ofTerms (front ++ back) = .ok (r.join s) := by
  rw [ofTerms_eq_ok_iff] at hr hs ⊢
  refine ⟨List.forall_mem_append.mpr ⟨hr.readable, hs.readable⟩, ?_, fun m => ?_⟩
  · rw [List.filterMap_append, ← List.append_assoc, ← hr.directives_eq, join, hs.directives_eq]
    rfl
  · rw [values_append hr hs, toList_valueOf?_join (h m), toList_valueOf?_empty, List.nil_append]

/-- Terms of records that share a modifier are refused as a repetition of one. -/
theorem ofTerms_append_of_share (hr : ofTerms front = .ok r) (hs : ofTerms back = .ok s)
    (h : ∃ m, r.Share s m) :
    ∃ m, r.Share s m ∧ ofTerms (front ++ back) = .error (.duplicateModifier m.name) := by
  rw [ofTerms_eq_ok_iff] at hr hs
  cases hresult : ofTerms (front ++ back) with
  | ok t =>
    -- No record has room for both values.
    obtain ⟨m, hm⟩ := h
    have hlength := (ofTerms_eq_ok_iff.mp hresult).length_le_one m
    rw [toList_valueOf?_empty, List.nil_append, values_append hr hs] at hlength
    rw [share_iff] at hm
    omega
  | error e =>
    have hreadable := List.forall_mem_append.mpr ⟨hr.readable, hs.readable⟩
    obtain ⟨m, rfl, hlength⟩ := foldlM_eq_error hreadable hresult
    rw [toList_valueOf?_empty, List.nil_append, values_append hr hs] at hlength
    exact ⟨m, share_iff.mpr hlength, rfl⟩

end Join

/-- The first fault ends the reading. -/
theorem ofTerms_append_of_error {front : List (List Char)} {e : RecordError}
    (h : ofTerms front = .error e) (back : List (List Char)) :
    ofTerms (front ++ back) = .error e := by
  rw [ofTerms] at h ⊢
  rw [List.foldlM_append, h]
  rfl

/-! Modifiers that are not kept -/

def IsOtherModifier (term : List Char) : Prop :=
  -- A modifier that is neither of the two: its name starts with a letter and goes on with letters,
  -- digits and the signs `-`, `_`, `.`, and its value may be anything.
  ∃ c cs value, term = c :: cs ++ '=' :: value ∧ c.isAlpha = true ∧
    (∀ d ∈ cs, d.isAlphanum = true ∨ d = '-' ∨ d = '_' ∨ d = '.') ∧
    ∀ m : Modifier, Text.sameLetters (c :: cs) m.name.toList = false

/-- A modifier that is not kept leaves no trace, whatever its value is. -/
theorem addTerm_of_isOtherModifier {term : List Char} (h : IsOtherModifier term) (r : Record) :
    r.addTerm term = .ok r := by
  obtain ⟨c, cs, value, rfl, hc, hcs, hname⟩ := h
  have hmodifierName : isModifierName (c :: cs) = true := by
    rw [isModifierName, hc, Bool.true_and, List.all_eq_true]
    intro d hd
    simpa [or_assoc] using hcs d hd
  have hequals : '=' ∉ c :: cs := by
    intro hmem
    rcases List.mem_cons.mp hmem with rfl | hmem
    · exact absurd hc (by decide)
    · exact absurd (hcs '=' hmem) (by decide)
  have hterm : modifier? (c :: cs ++ '=' :: value) = some (c :: cs, value) := by
    rw [modifier?, Text.cutFirst_append hequals]
    simp [Option.filter, hmodifierName]
  rw [addTerm, hterm]
  apply addModifier_of_unknown
  intro m heq
  -- The names of the two modifiers are in lower case.
  have hlower : Text.lower m.name.toList = m.name.toList := by
    cases m <;> decide
  have hsame := hname m
  rw [Text.sameLetters, hlower, ← heq, String.toList_ofList] at hsame
  simp at hsame

/-- A modifier that is not kept can stand anywhere among the terms. -/
theorem ofTerms_insert {term : List Char} (h : IsOtherModifier term)
    (front back : List (List Char)) : ofTerms (front ++ term :: back) = ofTerms (front ++ back) := by
  rw [ofTerms, ofTerms, List.foldlM_append, List.foldlM_append]
  congr 1
  funext r
  rw [List.foldlM_cons, addTerm_of_isOtherModifier h, ok_bind]

/-! The places of modifiers -/

structure Rearranged (terms terms' : List (List Char)) : Prop where
  -- The same directives in the same order, and the same modifiers anywhere among them.
  directives : terms.filter (fun term => (modifier? term).isNone) =
    terms'.filter fun term => (modifier? term).isNone
  modifiers : (terms.filter fun term => (modifier? term).isSome).Perm
    (terms'.filter fun term => (modifier? term).isSome)

theorem Rearranged.mem_iff {terms terms' : List (List Char)} (h : Rearranged terms terms')
    (term : List Char) : term ∈ terms ↔ term ∈ terms' := by
  cases hterm : modifier? term with
  | none =>
    have hmem := congrArg (term ∈ ·) h.directives
    simpa [hterm] using hmem
  | some cut =>
    have hmem := h.modifiers.mem_iff (a := term)
    simpa [hterm] using hmem

theorem filterMap_termDirective? (terms : List (List Char)) :
    terms.filterMap termDirective? =
      (terms.filter fun term => (modifier? term).isNone).filterMap termDirective? := by
  rw [List.filterMap_filter]
  apply List.filterMap_congr
  intro term _
  cases hterm : modifier? term <;> simp [termDirective?, hterm]

theorem filterMap_termValue? (m : Modifier) (terms : List (List Char)) :
    terms.filterMap (termValue? m) =
      (terms.filter fun term => (modifier? term).isSome).filterMap (termValue? m) := by
  rw [List.filterMap_filter]
  apply List.filterMap_congr
  intro term _
  cases hterm : modifier? term <;> simp [termValue?, hterm]

/-- A list with one member at most has no other order. -/
theorem eq_of_perm_of_length_le_one {α : Type} {xs ys : List α} (h : xs.Perm ys)
    (hlength : xs.length ≤ 1) : xs = ys := by
  match xs, hlength with
  | [], _ => exact (List.nil_perm.mp h).symm
  | [x], _ => exact (List.singleton_perm.mp h)

/-- A record has each modifier once at most, so their order does not matter to it. -/
theorem Extends.of_rearranged {r s : Record} {terms terms' : List (List Char)}
    (h : r.Extends terms s) (hterms : Rearranged terms terms') : r.Extends terms' s where
  readable term hterm := h.readable term ((hterms.mem_iff term).mpr hterm)
  directives_eq := by
    rw [h.directives_eq, filterMap_termDirective?, hterms.directives, ← filterMap_termDirective?]
  values_eq m := by
    have hperm := hterms.modifiers.filterMap (termValue? m)
    rw [← filterMap_termValue?, ← filterMap_termValue?] at hperm
    have hlength := h.length_le_one m
    rw [List.length_append] at hlength
    rw [h.values_eq, eq_of_perm_of_length_le_one hperm (by omega)]

/-- Terms that are accepted give the same record after a rearrangement. -/
theorem ofTerms_of_rearranged {terms terms' : List (List Char)} {r : Record}
    (h : Rearranged terms terms') (hr : ofTerms terms = .ok r) : ofTerms terms' = .ok r :=
  ofTerms_eq_ok_iff.mpr ((ofTerms_eq_ok_iff.mp hr).of_rearranged h)

/-! The case of names -/

/-- The terms differ in the case of letters, and only in front of a colon, a slash or an
equals sign, where the name of a term ends. -/
def Recased (term term' : List Char) : Prop :=
  ∃ name name' rest, term = name ++ rest ∧ term' = name' ++ rest ∧
    Text.sameLetters name name' = true ∧ ':' ∉ name ∧ '/' ∉ name ∧ '=' ∉ name

section Recasing

variable {name name' : List Char}

theorem isModifierName_lower (s : List Char) :
    isModifierName (Text.lower s) = isModifierName s := by
  cases s with
  | nil => rfl
  | cons c cs =>
    have hmark (c d : Char) (hd : d.isAlpha = false) : (c.toLower == d) = (c == d) := by
      rw [Bool.eq_iff_iff, beq_iff_eq, beq_iff_eq]
      exact Text.toLower_eq_iff hd
    have hhyphen (c : Char) := hmark c '-' (by decide)
    have hunderscore (c : Char) := hmark c '_' (by decide)
    have hpoint (c : Char) := hmark c '.' (by decide)
    simp only [Text.lower, List.map_cons, isModifierName, List.all_map, Function.comp_def,
      Text.isAlpha_toLower, Text.isAlphanum_toLower, hhyphen, hunderscore, hpoint]

theorem ofSign?_toLower (c : Char) : Qualifier.ofSign? c.toLower = Qualifier.ofSign? c := by
  cases hc : c.isUpper with
  | true =>
    have halphanum : c.isAlphanum = true :=
      Text.isAlphanum_iff.mpr (.inl (.inl (Text.isUpper_iff.mp hc)))
    rw [ofSign?_of_isAlphanum halphanum,
      ofSign?_of_isAlphanum (by rwa [Text.isAlphanum_toLower])]
  | false => rw [Text.toLower_eq_self hc]

/-- Names that differ in case only have the same characters apart from letters. -/
theorem mem_iff_of_sameLetters (h : Text.sameLetters name name' = true) {c : Char}
    (hc : c.isAlpha = false) : c ∈ name ↔ c ∈ name' := by
  have hmem (s : List Char) : c ∈ Text.lower s ↔ c ∈ s := by
    simp [Text.lower, List.mem_map, Text.toLower_eq_iff hc]
  rw [← hmem name, ← hmem name', beq_iff_eq.mp h]

/-- The name of a mechanism ends at the first colon or slash, so a part without either is kept
whole. -/
theorem splitTerm_append (hcolon : ':' ∉ name) (hslash : '/' ∉ name) (rest : List Char) :
    splitTerm (name ++ rest) = (name ++ (splitTerm rest).1, (splitTerm rest).2) := by
  rw [splitTerm, splitTerm, Text.cutFirst_append_left hcolon, Text.cutFirst_append_left hslash]
  cases Text.cutFirst ':' rest with
  | some cut => rfl
  | none => cases Text.cutFirst '/' rest <;> rfl

/-- The name of a mechanism may be written in any case. -/
theorem readMechanism_recased (h : Text.sameLetters name name' = true) (hcolon : ':' ∉ name)
    (hslash : '/' ∉ name) (rest : List Char) :
    readMechanism (name ++ rest) = readMechanism (name' ++ rest) := by
  have hcolon' : ':' ∉ name' := by rwa [← mem_iff_of_sameLetters h (by decide)]
  have hslash' : '/' ∉ name' := by rwa [← mem_iff_of_sameLetters h (by decide)]
  have hlower : Text.lower (name ++ (splitTerm rest).1) = Text.lower (name' ++ (splitTerm rest).1) := by
    rw [Text.lower_append, Text.lower_append, beq_iff_eq.mp h]
  rw [readMechanism, readMechanism, splitTerm_append hcolon hslash,
    splitTerm_append hcolon' hslash']
  simp only [hlower]

theorem readDirective_recased (h : Text.sameLetters name name' = true) (hcolon : ':' ∉ name)
    (hslash : '/' ∉ name) (rest : List Char) :
    readDirective (name ++ rest) = readDirective (name' ++ rest) := by
  rw [readDirective, readDirective]
  cases name with
  | nil =>
    have hlower : Text.lower [] = Text.lower name' := beq_iff_eq.mp h
    obtain rfl : name' = [] := by simpa [Text.lower] using hlower.symm
    rfl
  | cons c cs =>
    obtain ⟨c', cs', rfl⟩ : ∃ c' cs', name' = c' :: cs' := by
      cases name' with
      | nil => simp [Text.sameLetters, Text.lower] at h
      | cons c' cs' => exact ⟨c', cs', rfl⟩
    obtain ⟨hc, hcs⟩ : c.toLower = c'.toLower ∧ Text.sameLetters cs cs' = true := by
      simpa [Text.sameLetters, Text.lower] using h
    -- The first characters are the same sign, or both belong to the name.
    have hsign : Qualifier.ofSign? c = Qualifier.ofSign? c' := by
      rw [← ofSign?_toLower c, hc, ofSign?_toLower]
    rw [List.cons_append, List.cons_append, Qualifier.takeSign, Qualifier.takeSign, hsign]
    cases Qualifier.ofSign? c' with
    | some q =>
      have hrest := readMechanism_recased hcs (fun hmem => hcolon (List.mem_cons_of_mem c hmem))
        (fun hmem => hslash (List.mem_cons_of_mem c hmem)) rest
      simp only [hrest]
    | none =>
      have hrest := readMechanism_recased h hcolon hslash rest
      simp only [List.cons_append] at hrest
      simp only [hrest]

/-- A term says the same in another case of its name. -/
theorem addTerm_recased {term term' : List Char} (h : Recased term term') (r : Record) :
    r.addTerm term = r.addTerm term' := by
  obtain ⟨name, name', rest, rfl, rfl, hname, hcolon, hslash, hequals⟩ := h
  have hequals' : '=' ∉ name' := by rwa [← mem_iff_of_sameLetters hname (by decide)]
  have hlower (x : List Char) : Text.lower (name ++ x) = Text.lower (name' ++ x) := by
    rw [Text.lower_append, Text.lower_append, beq_iff_eq.mp hname]
  have hmodifierName (x : List Char) : isModifierName (name ++ x) = isModifierName (name' ++ x) := by
    rw [← isModifierName_lower, hlower, isModifierName_lower]
  rw [addTerm, addTerm, modifier?, modifier?, Text.cutFirst_append_left hequals,
    Text.cutFirst_append_left hequals', readDirective_recased hname hcolon hslash]
  cases Text.cutFirst '=' rest with
  | none => rfl
  | some cut =>
    -- Either both names are those of a modifier, or neither is.
    have hmodifier : r.addModifier (name ++ cut.1) cut.2 = r.addModifier (name' ++ cut.1) cut.2 := by
      rw [addModifier, addModifier, hlower]
    cases hvalid : isModifierName (name' ++ cut.1) with
    | false => simp [Option.filter, hmodifierName, hvalid]
    | true => simp [Option.filter, hmodifierName, hvalid, hmodifier]

/-- Terms with names in another case give the same record or the same error. -/
theorem ofTerms_recased {terms terms' : List (List Char)} (h : List.Forall₂ Recased terms terms') :
    ofTerms terms = ofTerms terms' := by
  rw [ofTerms, ofTerms]
  generalize empty = r
  induction h generalizing r with
  | nil => rfl
  | cons hterm _ ih =>
    rw [List.foldlM_cons, List.foldlM_cons, addTerm_recased hterm]
    congr 1
    funext next
    exact ih next

end Recasing

end SenderPolicy.Record

namespace SenderPolicy

/-- A record is read term by term. A fault in front stays one, two records that are accepted can
be put behind each other unless both have the same modifier, and a modifier that is not kept can
be put in anywhere. In a record that is accepted the modifiers may stand anywhere among the
directives, and no record depends on the case of the names in it. -/
theorem terms_read_one_by_one {front back : List (List Char)} {text frontText backText : String}
    (h : Record.HasTerms text (front ++ back)) (hfront : Record.HasTerms frontText front)
    (hback : Record.HasTerms backText back) :
    (∀ e, Record.ofText frontText = .error e → Record.ofText text = .error e) ∧
    (∀ r s, Record.ofText frontText = .ok r → Record.ofText backText = .ok s →
      ((∀ m, ¬ r.Share s m) → Record.ofText text = .ok (r.join s)) ∧
      ((∃ m, r.Share s m) → ∃ m, r.Share s m ∧
        Record.ofText text = .error (.duplicateModifier m.name))) ∧
    (∀ term text', Record.IsOtherModifier term → Record.HasTerms text' (front ++ term :: back) →
      Record.ofText text' = Record.ofText text) ∧
    (∀ terms text' r, Record.Rearranged (front ++ back) terms → Record.HasTerms text' terms →
      Record.ofText text = .ok r → Record.ofText text' = .ok r) ∧
    ∀ terms text', List.Forall₂ Record.Recased (front ++ back) terms →
      Record.HasTerms text' terms → Record.ofText text' = Record.ofText text := by
  rw [Record.ofText_of_hasTerms h, Record.ofText_of_hasTerms hfront,
    Record.ofText_of_hasTerms hback]
  refine ⟨fun e he => Record.ofTerms_append_of_error he back, fun r s hr hs => ⟨?_, ?_⟩, ?_, ?_, ?_⟩
  · exact Record.ofTerms_append_of_not_share hr hs
  · exact Record.ofTerms_append_of_share hr hs
  · intro term text' hterm htext
    rw [Record.ofText_of_hasTerms htext, Record.ofTerms_insert hterm]
  · intro terms text' r hterms htext hr
    rw [Record.ofText_of_hasTerms htext]
    exact Record.ofTerms_of_rearranged hterms hr
  · intro terms text' hterms htext
    rw [Record.ofText_of_hasTerms htext, Record.ofTerms_recased hterms]

/-- An equals sign in a target, a modifier named like the version, modifiers in front of the
directives, capitals, and blanks of two kinds. -/
theorem terms_read_one_by_one_mixed :
    let front := ["a:x=y/24".toList, "exp=why".toList]
    let back := ["-mx//64".toList, "redirect=r.example".toList]
    let moved := ["redirect=r.example".toList, "exp=why".toList, "a:x=y/24".toList,
      "-mx//64".toList]
    let recased := ["A:x=y/24".toList, "Exp=why".toList, "-Mx//64".toList,
      "REDIRECT=r.example".toList]
    let r : Record := ⟨[⟨.pass, .a (some "x=y") ⟨24, 128⟩⟩], none, some "why"⟩
    let s : Record := ⟨[⟨.fail, .mx none ⟨32, 64⟩⟩], some "r.example", none⟩
    let text := "v=spf1 a:x=y/24\texp=why  -mx//64 redirect=r.example"
    Record.HasTerms text (front ++ back) ∧ Record.Rearranged (front ++ back) moved ∧
      List.Forall₂ Record.Recased (front ++ back) recased ∧
      Record.ofText text = .ok (r.join s) ∧
      Record.ofText "v=spf1 a:x=y/24 exp=why v=spf1 -mx//64 redirect=r.example" = .ok (r.join s) ∧
      Record.ofText "v=spf1 redirect=r.example exp=why a:x=y/24 -mx//64" = .ok (r.join s) ∧
      Record.ofText "V=SPF1 A:x=y/24 Exp=why -Mx//64 REDIRECT=r.example" = .ok (r.join s) := by
  intro front back moved recased r s text
  have h : Record.HasTerms text (front ++ back) := ⟨"v=spf1".toList, by decide, by decide +kernel⟩
  have hmoved : Record.Rearranged (front ++ back) moved := ⟨by decide, by decide +kernel⟩
  have hrecased : List.Forall₂ Record.Recased (front ++ back) recased := by
    refine .cons ⟨['a'], ['A'], ":x=y/24".toList, ?_⟩ (.cons ⟨"exp".toList, "Exp".toList,
      "=why".toList, ?_⟩ (.cons ⟨"-mx".toList, "-Mx".toList, "//64".toList, ?_⟩
      (.cons ⟨"redirect".toList, "REDIRECT".toList, "=r.example".toList, ?_⟩ .nil))) <;> decide
  obtain ⟨-, hjoin, hinsert, hmove, hcase⟩ := terms_read_one_by_one h
    (⟨"v=spf1".toList, by decide, by decide +kernel⟩ : Record.HasTerms "v=spf1 a:x=y/24 exp=why" front)
    (⟨"v=spf1".toList, by decide, by decide +kernel⟩ :
      Record.HasTerms "v=spf1 -mx//64 redirect=r.example" back)
  have htext : Record.ofText text = .ok (r.join s) := by
    refine (hjoin r s (by decide +kernel) (by decide +kernel)).1 fun m => ?_
    cases m <;> simp [Record.Share, Record.valueOf?, r, s]
  have hversion : Record.IsOtherModifier "v=spf1".toList := by
    refine ⟨'v', [], "spf1".toList, rfl, rfl, List.forall_mem_nil _, fun m => ?_⟩
    cases m <;> decide
  refine ⟨h, hmoved, hrecased, htext, ?_, ?_, ?_⟩
  · rw [hinsert _ _ hversion ⟨"v=spf1".toList, by decide, by decide +kernel⟩, htext]
  · exact hmove _ _ _ hmoved ⟨"v=spf1".toList, by decide, by decide +kernel⟩ htext
  · rw [hcase _ _ hrecased ⟨"V=SPF1".toList, by decide, by decide +kernel⟩, htext]

end SenderPolicy
