import SenderPolicy.Proofs.Distinct
import SenderPolicy.Proofs.Plan
import SenderPolicy.Reload

/-! What a request that was loaded from a record asks for: for each kind of mechanism the
words of the record's values of that kind, and for the redirect the words of its target. The
loops that load it leave one entry for each kind, in the order in which the kinds first come. -/
namespace SenderPolicy

def wordsOf (kind : Kind) (values : List (Kind × String)) : List String :=
  (values.filter (·.1 = kind)).flatMap fun v => (Text.words v.2.toList).map String.ofList

theorem mem_wordsOf {kind : Kind} {values : List (Kind × String)} {w : String} :
    w ∈ wordsOf kind values ↔
      ∃ text, (kind, text) ∈ values ∧ w.toList ∈ Text.words text.toList := by
  simp only [wordsOf, List.mem_flatMap, List.mem_filter, List.mem_map, decide_eq_true_eq]
  constructor
  · intro h
    obtain ⟨⟨kind', text⟩, ⟨hv, rfl⟩, s, hs, rfl⟩ := h
    exact ⟨text, hv, by rwa [String.toList_ofList]⟩
  · intro h
    obtain ⟨text, hv, hw⟩ := h
    exact ⟨(kind, text), ⟨hv, rfl⟩, w.toList, hw, String.ofList_toList⟩

theorem wordsOf_append (kind : Kind) (values values' : List (Kind × String)) :
    wordsOf kind (values ++ values') = wordsOf kind values ++ wordsOf kind values' := by
  rw [wordsOf, List.filter_append, List.flatMap_append, wordsOf, wordsOf]

theorem wordsOf_of_ne {kind kind' : Kind} (h : kind ≠ kind') (text : String) :
    wordsOf kind' [(kind, text)] = [] := by
  simp [wordsOf, h]

namespace Mechanism

def value? (domain : String) : Mechanism → Option (Kind × String)
  | inclusion target => some (.inclusion, target)
  | ip4 network => some (.ip4, network)
  | ip6 network => some (.ip6, network)
  | existence target => some (.existence, target)
  | a target? length => if length = .host then some (.a, target?.getD domain) else none
  | mx target? length => if length = .host then some (.mx, target?.getD domain) else none
  | ptr _ | all => none

/-- Only the kinds that a build makes mechanisms of have values. -/
theorem kind_mem_of_value? {domain : String} {m : Mechanism} {v : Kind × String}
    (h : m.value? domain = some v) : v.1 ∈ Kind.buildOrder := by
  cases m with
  | inclusion _ | ip4 _ | ip6 _ | existence _ =>
    obtain rfl := Option.some.inj h
    simp [Kind.buildOrder]
  | a _ _ | mx _ _ =>
    obtain ⟨-, rfl⟩ : _ ∧ _ = v := by simpa [value?] using h
    simp [Kind.buildOrder]
  | ptr _ | all => cases h

end Mechanism

def Directive.value? (domain : String) (d : Directive) : Option (Kind × String) :=
  -- Only passes are loaded as values.
  if d.qualifier = .pass then d.mechanism.value? domain else none

theorem Directive.value?_eq_some_iff {domain : String} {d : Directive} {v : Kind × String} :
    d.value? domain = some v ↔ d.qualifier = .pass ∧ d.mechanism.value? domain = some v := by
  simp [value?]

def Directive.warning? (domain : String) (d : Directive) : Option Event :=
  if d.mechanism = .all ∨ (d.value? domain).isSome then none
  else if d.qualifier = .pass then some (.unsupportedSkipped d)
  else some (.qualifiedSkipped d)

/-- The terminal gives the qualifier, a value is kept, and all else is skipped. -/
theorem Directive.load_eq (domain : String) (d : Directive) :
    (d.mechanism = .all ∧ d.load domain = .terminal ∧ d.value? domain = none ∧
        d.warning? domain = none) ∨
      (∃ kind text, d.load domain = .value kind text ∧ d.value? domain = some (kind, text) ∧
        d.warning? domain = none) ∨
      (d.mechanism ≠ .all ∧ d.value? domain = none ∧
        ∃ warning, d.load domain = .skipped warning ∧ d.warning? domain = some warning) := by
  obtain ⟨qualifier, m⟩ := d
  by_cases hpass : qualifier = .pass
  · cases m with
    | a _ length | mx _ length =>
      by_cases hlength : length = .host <;>
        simp [load, value?, warning?, Mechanism.value?, hpass, hlength]
    | _ => simp [load, value?, warning?, Mechanism.value?, hpass]
  · by_cases hall : m = .all
    · simp [load, value?, warning?, hpass, hall]
    · simp [load, value?, warning?, hpass, hall]

/-- An entry of a new kind is put at the end. -/
theorem setEntry_eq_append {new : Entry} {es : List Entry} (h : ∀ e ∈ es, e.kind ≠ new.kind) :
    setEntry new es = es ++ [new] := by
  induction es with
  | nil => rfl
  | cons e es ih =>
    rw [setEntry, if_neg (h e List.mem_cons_self), List.cons_append,
      ih fun e' he' => h e' (List.mem_cons_of_mem e he')]

namespace Request

/-- Groups of new kinds become entries, and none of them replaces another. -/
theorem foldl_withValues {q : Request} {groups : List (Kind × List String)}
    (hnodup : (groups.map (·.1)).Nodup) (hnew : ∀ e ∈ q.entries, e.kind ∉ groups.map (·.1)) :
    groups.foldl (fun q group => q.withValues group.1 group.2) q =
      { q with entries := q.entries ++ groups.map fun g => .of g.1 g.2 } := by
  induction groups generalizing q with
  | nil => simp
  | cons g groups ih =>
    obtain ⟨hg, hgroups⟩ := List.nodup_cons.mp hnodup
    have hset : setEntry (.of g.1 g.2) q.entries = q.entries ++ [.of g.1 g.2] :=
      setEntry_eq_append fun e he h => hnew e he (by simpa using .inl h)
    have hq : q.withValues g.1 g.2 = { q with entries := q.entries ++ [.of g.1 g.2] } := by
      rw [withValues, set, hset]
    rw [List.foldl_cons, hq, ih hgroups]
    · simp
    · intro e he
      rcases List.mem_append.mp he with he | he
      · exact fun h => hnew e he (List.mem_cons_of_mem _ h)
      · rwa [List.mem_singleton.mp he]

/-- Setting a target adds an entry at the end if there is none for the redirect yet. -/
theorem withRedirect_eq {q : Request} (h : ∀ e ∈ q.entries, e.kind ≠ .redirect) (target : String) :
    q.withRedirect target =
      ⟨q.domain, q.entries ++ [.of .redirect [target]], true, q.qualifier⟩ := by
  rw [withRedirect, set, setEntry_eq_append h]

end Request

/-! The groups of values -/

def textsOf (kind : Kind) (values : List (Kind × String)) : List String :=
  (values.filter (·.1 = kind)).map (·.2)

theorem textsOf_append_singleton (kind kind' : Kind) (text : String)
    (values : List (Kind × String)) : textsOf kind (values ++ [(kind', text)]) =
      if kind = kind' then textsOf kind values ++ [text] else textsOf kind values := by
  by_cases h : kind = kind'
  · simp [textsOf, h]
  · simp [textsOf, h, Ne.symm h]

theorem textsOf_eq_nil {kind : Kind} {values : List (Kind × String)}
    (h : kind ∉ values.map (·.1)) : textsOf kind values = [] := by
  rw [textsOf, List.map_eq_nil_iff, List.filter_eq_nil_iff]
  intro v hv
  simpa using fun hk : v.1 = kind => h (hk ▸ List.mem_map_of_mem hv)

/-- The entry for a kind asks for the words of its texts. -/
theorem tokens_textsOf (kind : Kind) (values : List (Kind × String)) :
    (Entry.of kind (textsOf kind values)).tokens = wordsOf kind values := by
  simp [Entry.tokens, Entry.of, textsOf, wordsOf, List.flatMap_map]

def groupsOf (values : List (Kind × String)) : List (Kind × List String) :=
  -- Each kind with its texts, in the order in which the kinds first come.
  (distinct (values.map (·.1))).map fun kind => (kind, textsOf kind values)

/-- Each kind has one group, where its first value stands. -/
theorem map_fst_groupsOf (values : List (Kind × String)) :
    (groupsOf values).map (·.1) = distinct (values.map (·.1)) := by
  rw [groupsOf, List.map_map]
  exact List.map_id _

namespace Loading

theorem addValue_of_notMem {kind : Kind} {groups : List (Kind × List String)} (text : String)
    (h : kind ∉ groups.map (·.1)) : addValue kind text groups = groups ++ [(kind, [text])] := by
  induction groups with
  | nil => rfl
  | cons g groups ih =>
    obtain ⟨k, values⟩ := g
    rw [List.map_cons, List.mem_cons, not_or] at h
    rw [addValue, if_neg (Ne.symm h.1), ih h.2, List.cons_append]

theorem addValue_map_of_mem (f : Kind → List String) {kind : Kind} {kinds : List Kind}
    (text : String) (hmem : kind ∈ kinds) (hnodup : kinds.Nodup) :
    addValue kind text (kinds.map fun k => (k, f k)) =
      kinds.map fun k => (k, if k = kind then f k ++ [text] else f k) := by
  induction kinds with
  | nil => cases hmem
  | cons k kinds ih =>
    obtain ⟨hk, hkinds⟩ := List.nodup_cons.mp hnodup
    rw [List.map_cons, addValue, List.map_cons]
    by_cases h : k = kind
    · -- No other group is of this kind.
      have hrest : ∀ k' ∈ kinds, k' ≠ kind := fun k' hk' hne => hk (h ▸ hne ▸ hk')
      rw [if_pos h, if_pos h]
      congr 1
      apply List.map_congr_left
      intro k' hk'
      rw [if_neg (hrest k' hk')]
    · rw [if_neg h, if_neg h, ih ((List.mem_cons.mp hmem).resolve_left (Ne.symm h)) hkinds]

/-- One more value, in the group of its kind. -/
theorem addValue_groupsOf (kind : Kind) (text : String) (values : List (Kind × String)) :
    addValue kind text (groupsOf values) = groupsOf (values ++ [(kind, text)]) := by
  have hkinds : distinct ((values ++ [(kind, text)]).map (·.1)) =
      distinct (values.map (·.1)) ++ [kind].filter (· ∉ values.map (·.1)) := by
    rw [List.map_append, distinct_append]
    rfl
  -- A kind that is there already keeps its place, and a new one comes last.
  by_cases hmem : kind ∈ values.map (·.1)
  · have hnone : [kind].filter (· ∉ values.map (·.1)) = [] := by simpa using hmem
    rw [groupsOf, addValue_map_of_mem _ text (mem_distinct.mpr hmem) (nodup_distinct _), groupsOf,
      hkinds, hnone, List.append_nil]
    simp only [textsOf_append_singleton]
  · have hself : [kind].filter (· ∉ values.map (·.1)) = [kind] := by simpa using hmem
    have hnew : kind ∉ (groupsOf values).map (·.1) := by
      rwa [map_fst_groupsOf, mem_distinct]
    rw [addValue_of_notMem text hnew, groupsOf, groupsOf, hkinds, hself, List.map_append]
    congr 1
    · apply List.map_congr_left
      intro k hk
      have hne : k ≠ kind := fun h => hmem (h ▸ mem_distinct.mp hk)
      rw [textsOf_append_singleton, if_neg hne]
    · simp [textsOf_append_singleton, textsOf_eq_nil hmem]

/-- By induction on the values, adding them one by one gives their groups. -/
theorem foldl_addValue (before values : List (Kind × String)) :
    values.foldl (fun groups v => addValue v.1 v.2 groups) (groupsOf before) =
      groupsOf (before ++ values) := by
  induction values generalizing before with
  | nil => rw [List.foldl_nil, List.append_nil]
  | cons v values ih =>
    rw [List.foldl_cons, addValue_groupsOf, ih, List.append_assoc]
    rfl

/-- A directive adds its value or its warning, and the terminal adds neither. -/
theorem add_eq (domain : String) (l : Loading) (d : Directive) : l.add domain d =
    ⟨(d.value? domain).toList.foldl (fun groups v => addValue v.1 v.2 groups) l.groups,
      l.warnings ++ (d.warning? domain).toList⟩ := by
  rw [add]
  rcases d.load_eq domain with ⟨-, hload, hv, hw⟩ | ⟨kind, text, hload, hv, hw⟩ |
    ⟨-, hv, warning, hload, hw⟩
  · rw [hload, hv, hw]
    simp
  · rw [hload, hv, hw]
    simp
  · rw [hload, hv, hw]
    simp

/-- By induction on the directives, loading keeps the values and the warnings apart. -/
theorem foldl_add (domain : String) (l : Loading) (ds : List Directive) :
    ds.foldl (add domain) l =
      ⟨(ds.filterMap (Directive.value? domain)).foldl (fun groups v => addValue v.1 v.2 groups)
          l.groups,
        l.warnings ++ ds.filterMap (Directive.warning? domain)⟩ := by
  induction ds generalizing l with
  | nil => simp
  | cons d ds ih =>
    rw [List.foldl_cons, ih, add_eq, List.filterMap_cons, List.filterMap_cons]
    cases d.value? domain <;> cases d.warning? domain <;> simp

end Loading

namespace Record

def values (r : Record) (domain : String) : List (Kind × String) :=
  r.directives.filterMap (Directive.value? domain)

/-- Loading gives the groups of all the values and a warning for each directive that is skipped. -/
theorem load_eq (r : Record) (domain : String) : r.load domain =
    ⟨groupsOf (r.values domain), r.directives.filterMap (Directive.warning? domain)⟩ := by
  rw [load, Loading.foldl_add, Loading.start, List.nil_append]
  congr 1
  exact Loading.foldl_addValue [] (r.values domain)

theorem skipEvents_eq (r : Record) (domain : String) :
    r.skipEvents domain = r.directives.filterMap (Directive.warning? domain) := by
  rw [skipEvents, load_eq]

/-- Nothing is skipped if each directive is a terminal or gives a value. -/
theorem skipEvents_eq_nil_iff {r : Record} {domain : String} :
    r.skipEvents domain = [] ↔
      ∀ d ∈ r.directives, d.mechanism = .all ∨ ∃ v, d.value? domain = some v := by
  rw [skipEvents_eq, List.filterMap_eq_nil_iff]
  apply forall₂_congr
  intro d _
  rcases d.load_eq domain with ⟨hm, -, hv, hw⟩ | ⟨kind, text, -, hv, hw⟩ | ⟨hm, hv, warning, -, hw⟩
  · simp [hm, hw]
  · simp [hv, hw]
  · simp [hm, hv, hw]

theorem kind_mem_of_mem_values {r : Record} {domain : String} {v : Kind × String}
    (h : v ∈ r.values domain) : v.1 ∈ Kind.buildOrder := by
  rw [values, List.mem_filterMap] at h
  obtain ⟨d, -, hd⟩ := h
  exact Mechanism.kind_mem_of_value? (Directive.value?_eq_some_iff.mp hd).2

/-! The entries of a loaded request -/

def entriesOf (values : List (Kind × String)) : List Entry :=
  -- One entry for each kind, in the order in which the kinds first come.
  (distinct (values.map (·.1))).map fun kind => .of kind (textsOf kind values)

theorem kind_mem_of_mem_entriesOf {values : List (Kind × String)} {e : Entry}
    (h : e ∈ entriesOf values) : e.kind ∈ values.map (·.1) := by
  obtain ⟨kind, hkind, rfl⟩ := List.mem_map.mp h
  exact mem_distinct.mp hkind

theorem kind_ne_redirect_of_mem_entriesOf {r : Record} {domain : String} {e : Entry}
    (h : e ∈ entriesOf (r.values domain)) : e.kind ≠ .redirect := by
  obtain ⟨v, hv, hkind⟩ := List.mem_map.mp (kind_mem_of_mem_entriesOf h)
  exact hkind ▸ Kind.ne_redirect_of_mem (kind_mem_of_mem_values hv)

/-- A loaded request, field by field. -/
theorem toRequest_eq (r : Record) (domain : String) : r.toRequest domain =
    ⟨domain, entriesOf (r.values domain) ++ (r.redirect?.map (Entry.of .redirect [·])).toList,
      r.redirect?.isSome, r.terminal?.getD .neutral⟩ := by
  -- The request before any value is added, to which the groups are added one by one.
  let bare := (Request.empty domain).withQualifier (r.terminal?.getD .neutral)
  have hgroups : ((groupsOf (r.values domain)).map (·.1)).Nodup := by
    rw [map_fst_groupsOf]
    exact nodup_distinct _
  have hentries : (groupsOf (r.values domain)).map (fun g => Entry.of g.1 g.2) =
      entriesOf (r.values domain) := by
    rw [groupsOf, List.map_map]
    rfl
  have hloaded : (groupsOf (r.values domain)).foldl (fun q group => q.withValues group.1 group.2)
      bare = { bare with entries := entriesOf (r.values domain) } := by
    have hempty : ∀ e ∈ bare.entries, e.kind ∉ (groupsOf (r.values domain)).map (·.1) :=
      List.forall_mem_nil _
    rw [Request.foldl_withValues hgroups hempty, hentries]
    rfl
  rw [toRequest, load_eq, hloaded]
  cases hred : r.redirect? with
  | none => simp [bare, Request.empty, Request.withQualifier]
  | some target =>
    dsimp only
    rw [Request.withRedirect_eq fun e he => kind_ne_redirect_of_mem_entriesOf he]
    rfl

/-- The entry of a kind holds its texts, and there is none without a text. -/
theorem find?_entriesOf (values : List (Kind × String)) (kind : Kind) :
    (entriesOf values).reverse.find? (·.kind = kind) =
      if kind ∈ values.map (·.1) then
        some (.of kind (textsOf kind values))
      else none := by
  by_cases hkind : kind ∈ values.map (·.1)
  · -- The kinds are distinct, so the last entry of a kind is its only one.
    rw [if_pos hkind, entriesOf, ← List.map_reverse, List.find?_map]
    have hfind : (distinct (values.map (·.1))).reverse.find? (· = kind) = some kind := by
      have hmem := List.mem_reverse.mpr (mem_distinct.mpr hkind)
      cases hf : (distinct (values.map (·.1))).reverse.find? (· = kind) with
      | none => simpa using List.find?_eq_none.mp hf kind hmem
      | some kind' =>
        have heq : kind' = kind := by simpa using List.find?_some hf
        rw [heq]
    exact congrArg _ hfind
  · rw [if_neg hkind]
    refine List.find?_eq_none.mpr fun e he => ?_
    have hmem := kind_mem_of_mem_entriesOf (List.mem_reverse.mp he)
    simpa using fun h : e.kind = kind => hkind (h ▸ hmem)

/-- For each kind a loaded request asks for the words in the texts of the record. -/
theorem values?_toRequest (r : Record) (domain : String) {kind : Kind} (h : kind ≠ .redirect) :
    (r.toRequest domain).values? kind = if kind ∈ (r.values domain).map (·.1) then
      some (wordsOf kind (r.values domain)) else none := by
  have hother : (r.redirect?.map (Entry.of .redirect [·])).toList.reverse.find? (·.kind = kind) =
      none := by
    cases r.redirect? with
    | none => rfl
    | some target => simpa [Entry.of] using h.symm
  rw [Request.values?, Request.entry?, toRequest_eq, List.reverse_append, List.find?_append, hother,
    Option.none_or, find?_entriesOf]
  by_cases hkind : kind ∈ (r.values domain).map (·.1)
  · rw [if_pos hkind, if_pos hkind, ← tokens_textsOf]
    rfl
  · rw [if_neg hkind, if_neg hkind]
    rfl

theorem getD_values?_toRequest (r : Record) (domain : String) {kind : Kind} (h : kind ≠ .redirect) :
    ((r.toRequest domain).values? kind).getD [] = wordsOf kind (r.values domain) := by
  rw [values?_toRequest r domain h]
  by_cases hkind : kind ∈ (r.values domain).map (·.1)
  · rw [if_pos hkind, Option.getD_some]
  · have hnone : (r.values domain).filter (·.1 = kind) = [] :=
      List.filter_eq_nil_iff.mpr fun v hv => by
        simpa using fun hk : v.1 = kind => hkind (hk ▸ List.mem_map_of_mem hv)
    rw [if_neg hkind, wordsOf, hnone]
    rfl

theorem redirectValues_toRequest {r : Record} {domain target : String}
    (h : r.redirect? = some target) :
    (r.toRequest domain).redirectValues = (Text.words target.toList).map String.ofList := by
  rw [Request.redirectValues, Request.entry?, toRequest_eq, h]
  simp [Entry.of, Entry.tokens]

@[simp]
theorem ownDomain_toRequest (r : Record) (domain : String) :
    (r.toRequest domain).ownDomain = String.ofList (Text.trim domain.toList) := by
  rw [toRequest_eq]
  rfl

@[simp]
theorem redirectEnabled_toRequest (r : Record) (domain : String) :
    (r.toRequest domain).redirectEnabled = r.redirect?.isSome := by
  rw [toRequest_eq]

@[simp]
theorem qualifier_toRequest (r : Record) (domain : String) :
    (r.toRequest domain).qualifier = r.terminal?.getD .neutral := by
  rw [toRequest_eq]

theorem values?_all_toRequest (r : Record) (domain : String) :
    (r.toRequest domain).values? .all = none := by
  rw [values?_toRequest r domain (by decide), if_neg]
  intro h
  obtain ⟨v, hv, hkind⟩ := List.mem_map.mp h
  exact Kind.ne_all_of_mem (kind_mem_of_mem_values hv) hkind

/-- A loaded request is rejected for a kind whose values hold no word or a bad one. -/
theorem mechanismRejections_toRequest_eq_nil_iff {style : MacroStyle} {r : Record}
    {domain : String} : (r.toRequest domain).mechanismRejections style = [] ↔
      ∀ v ∈ r.values domain, wordsOf v.1 (r.values domain) ≠ [] ∧
        ∀ w ∈ wordsOf v.1 (r.values domain), ∃ n, validate style v.1 w = .ok n := by
  rw [Request.mechanismRejections_eq_nil_iff, values?_all_toRequest]
  simp only [Option.getD_none, and_true]
  constructor
  · intro h v hv
    have hkind := kind_mem_of_mem_values hv
    refine h v.1 hkind _ ?_
    rw [values?_toRequest r domain (Kind.ne_redirect_of_mem hkind), if_pos (List.mem_map_of_mem hv)]
  · intro h kind hkind values hvalues
    rw [values?_toRequest r domain (Kind.ne_redirect_of_mem hkind), Option.ite_none_right_eq_some,
      Option.some.injEq] at hvalues
    obtain ⟨hmem, rfl⟩ := hvalues
    obtain ⟨v, hv, rfl⟩ := List.mem_map.mp hmem
    exact h v hv

end Record
end SenderPolicy
