import SenderPolicy.Proofs.RecordText

/-! Directives that were read, written and read again. Full prefix lengths are left out when
an `a` or `mx` is written. That is no loss, but for a target with a slash in it, whose last
slash is then taken for that of a length. -/
namespace SenderPolicy

/-- A slash in the target is the last one in front of the second length, because the first
length is full and not written. -/
def Mechanism.HidesLength : Mechanism → Prop
  | a target? l | mx target? l =>
    l.v4 = DualLength.host.v4 ∧ ∃ target ∈ target?, '/' ∈ target.toList
  | _ => False

namespace Record

open Text (IsUnbroken)

/-- A mechanism that was read can be read again from its own text, unless it hides a length. -/
theorem isWritable_of_readMechanism {s : List Char} {m : Mechanism} (hs : IsUnbroken s)
    (h : readMechanism s = .ok m) (hm : ¬ m.HidesLength) : m.IsWritable := by
  have hwords := namesWords_of_readMechanism hs h
  cases readsAs_of_readMechanism h with
  | all => trivial
  | inclusion | existence | ptr => exact hwords
  | @a target? l htarget | @mx target? l htarget =>
    intro target ht
    refine ⟨hwords target ht, ?_⟩
    by_cases hslash : '/' ∈ target.toList
    · have hwritten : l.v4 ≠ DualLength.host.v4 := fun hfull => hm ⟨hfull, target, ht, hslash⟩
      obtain ⟨chars, rfl, -, hdouble, hlast⟩ := targetAndLength_eq_ok htarget
      obtain ⟨rfl, -⟩ := mem_targetOf_iff.mp ht
      exact .inr ⟨hwritten, hdouble, hlast⟩
    · exact .inl hslash
  | ip4 htext | ip6 htext => exact readNetwork_eq_ok htext

/-- What stands behind the last slash of the target is read as a length. -/
theorem targetAndLength_append_ne {target : String} {l : DualLength}
    (hdouble : Text.cutDouble '/' target.toList = none)
    (hlast : target.toList.getLast? ≠ some '/') (hslash : '/' ∈ target.toList)
    (hfull : l.v4 = DualLength.host.v4) :
    targetAndLength (target.toList ++ (l.text4 ++ l.text6)) ≠ .ok (some target, l) := by
  intro h
  rw [targetAndLength, takeLength6_append hdouble hlast, ok_bind] at h
  obtain ⟨⟨front, v4⟩, hfront, h⟩ := bind_eq_ok_iff.mp h
  have htarget : targetOf front = some target := (Prod.mk.inj (Except.ok.inj h)).1
  obtain ⟨rfl, -⟩ := mem_targetOf_iff.mp htarget
  have hcut : Text.cutLast '/' target.toList ≠ none := fun hnone =>
    Text.cutLast_eq_none_iff.mp hnone hslash
  obtain ⟨⟨before, after⟩, hcut⟩ := Option.ne_none_iff_exists'.mp hcut
  rw [DualLength.text4, if_pos hfull, List.append_nil, takeLength4, hcut] at hfront
  obtain ⟨n, -, hn⟩ := map_eq_ok_iff.mp hfront
  -- The target that is read is shorter, since at least the slash is missing.
  have hbefore : before = target.toList := (Prod.mk.inj hn).1
  have happend := (Text.eq_append_of_cutLast hcut).1
  simp [hbefore] at happend

/-- A length that is left out is not seen again, so the text is read as another mechanism. -/
theorem readMechanism_render_ne {s : List Char} {m : Mechanism} (h : readMechanism s = .ok m)
    (hm : m.HidesLength) : readMechanism m.render.toList ≠ .ok m := by
  intro hagain
  have hread := readsAs_of_readMechanism hagain
  cases readsAs_of_readMechanism h with
  | @a target? l htarget | @mx target? l htarget =>
    obtain ⟨hfull, target, ht, hslash⟩ := hm
    obtain ⟨chars, rfl, -, hdouble, hlast⟩ := targetAndLength_eq_ok htarget
    obtain ⟨rfl, -⟩ := mem_targetOf_iff.mp ht
    have hargument : (":" ++ target).toList ++ (l.text4 ++ l.text6) =
        ':' :: (target.toList ++ (l.text4 ++ l.text6)) := by simp
    rw [ht, Mechanism.toList_render, Mechanism.argument, Mechanism.renderTarget, hargument,
      splitTerm_colon (Mechanism.colon_not_mem_keyword _)] at hread
    cases hread
    next hlengths => exact targetAndLength_append_ne hdouble hlast hslash hfull hlengths
  | _ => exact hm

/-- A mechanism that was read is read back exactly if it hides no length. -/
theorem readMechanism_render_iff {s : List Char} {m : Mechanism} (hs : IsUnbroken s)
    (h : readMechanism s = .ok m) : readMechanism m.render.toList = .ok m ↔ ¬ m.HidesLength := by
  constructor
  · intro hagain hhides
    exact readMechanism_render_ne h hhides hagain
  · intro hm
    exact readMechanism_render (isWritable_of_readMechanism hs h hm)

/-- The sign of a directive is read back in any case, so its mechanism decides. -/
theorem readDirective_render_iff {d : Directive} : readDirective d.render.toList = .ok d ↔
    readMechanism d.mechanism.render.toList = .ok d.mechanism := by
  rw [readDirective, takeSign_render]
  dsimp only
  rw [bind_eq_ok_iff]
  constructor
  · intro h
    obtain ⟨m, hm, h⟩ := h
    rw [hm, ← Except.ok.inj h]
  · intro h
    exact ⟨d.mechanism, h, rfl⟩

/-- A record of directives is read back exactly if each directive is. -/
theorem ofText_render_directives_iff {ds : List Directive}
    (hwords : ∀ d ∈ ds, d.mechanism.NamesWords) :
    ofText (" ".intercalate (versionTag :: ds.map Directive.render)) = .ok ⟨ds, none, none⟩ ↔
      ∀ d ∈ ds, readDirective d.render.toList = .ok d := by
  have hterms : ∀ t ∈ ds.map Directive.render, Text.IsWord t.toList := by
    intro t ht
    obtain ⟨d, hd, rfl⟩ := List.mem_map.mp ht
    exact Directive.isWord_render (hwords d hd)
  rw [ofText_intercalate hterms, ofTerms, List.map_map]
  show (ds.map fun d => d.render.toList).foldlM addTerm empty = _ ↔ _
  rw [foldlM_addTerm_render_eq_ok_iff]
  constructor
  · intro h
    obtain ⟨ds', hds, heq⟩ := h
    obtain rfl : ds = ds' := congrArg Record.directives heq
    exact List.forall₂_same.mp hds
  · intro h
    exact ⟨ds, List.forall₂_same.mpr h, rfl⟩

end Record

/-- A directive that was read is written as a record of its own, and read from it again,
exactly if it hides no length. All directives together are read back exactly if none of
them hides one. -/
theorem directives_read_back_iff {text : String} {r : Record} (h : Record.ofText text = .ok r) :
    (∀ d ∈ r.directives, Record.ofText ("v=spf1 " ++ d.render) = .ok ⟨[d], none, none⟩ ↔
        ¬ d.mechanism.HidesLength) ∧
      (Record.ofText (" ".intercalate ("v=spf1" :: r.directives.map Directive.render)) =
          .ok ⟨r.directives, none, none⟩ ↔
        ∀ d ∈ r.directives, ¬ d.mechanism.HidesLength) := by
  have hread := Record.isRead_of_ofText h
  have hwords := (Record.namesWords_of_ofText h).mechanism
  have hsingle : ∀ d ∈ r.directives,
      Record.readDirective d.render.toList = .ok d ↔ ¬ d.mechanism.HidesLength := by
    intro d hd
    obtain ⟨s, hs, hm⟩ := hread.mechanism d hd
    rw [Record.readDirective_render_iff, Record.readMechanism_render_iff hs hm]
  constructor
  · intro d hd
    have hone :
        "v=spf1 " ++ d.render = " ".intercalate (versionTag :: [d].map Directive.render) := by
      simp [versionTag]
    rw [hone, Record.ofText_render_directives_iff (by simpa using hwords d hd),
      List.forall_mem_singleton, hsingle d hd]
  · rw [← forall₂_congr hsingle]
    exact Record.ofText_render_directives_iff hwords

/-- Slashes and equals signs in arguments, a length that is written, capitals and signs. -/
theorem directives_read_back_spellings :
    let directives : List Directive := [⟨.pass, .a (some "x/24") ⟨30, 128⟩⟩,
      ⟨.fail, .mx (some "y:z=1") ⟨32, 64⟩⟩, ⟨.pass, .ptr (some "/8")⟩,
      ⟨.neutral, .existence "%\x7bd1/\x7d=a"⟩, ⟨.pass, .ip6 "::1/64"⟩]
    let text := "v=spf1 A:x/24/30 exp=e -mx:y:z=1/32//64 +PTR/8 ?exists:%\x7bd1/\x7d=a IP6:0:0::1/64"
    Record.ofText text = .ok ⟨directives, none, some "e"⟩ ∧
      ∀ d ∈ directives, Record.ofText ("v=spf1 " ++ d.render) = .ok ⟨[d], none, none⟩ := by
  intro directives text
  have h : Record.ofText text = .ok ⟨directives, none, some "e"⟩ := by decide +kernel
  refine ⟨h, fun d hd => ((directives_read_back_iff h).1 d hd).mpr ?_⟩
  simp only [directives, List.mem_cons, List.not_mem_nil, or_false] at hd
  rcases hd with rfl | rfl | rfl | rfl | rfl <;>
    simp [Mechanism.HidesLength, DualLength.host]

/-- The end of the target is taken for the length that was not written. -/
theorem slash_in_target_not_read_back :
    ¬ ∀ (text : String) (r : Record), Record.ofText text = .ok r → ∀ d ∈ r.directives,
      Record.ofText ("v=spf1 " ++ d.render) = .ok ⟨[d], none, none⟩ := by
  intro h
  have hread : Record.ofText "v=spf1 a:x/24/32" =
      .ok ⟨[⟨.pass, .a (some "x/24") .host⟩], none, none⟩ := by decide +kernel
  have hagain := h _ _ hread _ List.mem_cons_self
  have hother : Record.ofText ("v=spf1 " ++ (⟨.pass, .a (some "x/24") .host⟩ : Directive).render) =
      .ok ⟨[⟨.pass, .a (some "x") ⟨24, 128⟩⟩], none, none⟩ := by decide +kernel
  rw [hother] at hagain
  exact absurd hagain (by decide)

/-! Directives that were not read before they are written -/

/-- The mechanisms whose text leaves no doubt about where an argument ends: arguments are
words, the target in front of the prefix lengths has no slash, and networks are in canonical
text. -/
inductive Mechanism.IsWellFormed : Mechanism → Prop
  | all : IsWellFormed .all
  | inclusion {target : String} : Text.IsWord target.toList → IsWellFormed (.inclusion target)
  | existence {target : String} : Text.IsWord target.toList → IsWellFormed (.existence target)
  | barePtr : IsWellFormed (.ptr none)
  | ptr {target : String} : Text.IsWord target.toList → IsWellFormed (.ptr (some target))
  | bareA (l : DualLength) : IsWellFormed (.a none l)
  | a {target : String} (l : DualLength) : Text.IsWord target.toList → '/' ∉ target.toList →
      IsWellFormed (.a (some target) l)
  | bareMx (l : DualLength) : IsWellFormed (.mx none l)
  | mx {target : String} (l : DualLength) : Text.IsWord target.toList → '/' ∉ target.toList →
      IsWellFormed (.mx (some target) l)
  | ip4 (n : Network Ipv4) : IsWellFormed (.ip4 (String.ofList n.toChars))
  | ip6 (n : Network Ipv6) : IsWellFormed (.ip6 (String.ofList n.toChars))

/-- No slash in the target and no blank in the argument is enough. -/
theorem Mechanism.IsWellFormed.isWritable {m : Mechanism} (h : m.IsWellFormed) :
    m.IsWritable := by
  cases h with
  | all => trivial
  | inclusion hword | existence hword => exact hword
  | barePtr | bareA | bareMx =>
    intro target htarget
    cases htarget
  | ptr hword =>
    intro target htarget
    cases htarget
    exact hword
  | a l hword hslash | mx l hword hslash =>
    intro target htarget
    cases htarget
    -- Without a slash in the target the first one is that of a length.
    exact ⟨hword, .inl hslash⟩
  | ip4 n | ip6 n => exact ⟨n, String.toList_ofList⟩

/-- A directive that is well formed is written as a record of its own and read from it again,
with any qualifier and any prefix lengths. -/
theorem well_formed_directive_read_back {d : Directive} (h : d.mechanism.IsWellFormed) :
    Record.ofText ("v=spf1 " ++ d.render) = .ok ⟨[d], none, none⟩ := by
  have hwritable := h.isWritable
  have hword : Text.IsWord d.render.toList := Directive.isWord_render hwritable.namesWords
  rw [Record.ofText_single hword Record.modifier?_render, Record.readDirective_render hwritable]
  rfl

/-- A target that looks like a modifier with a sign in front, lengths that are left out or come
alone, and networks. -/
theorem well_formed_directive_read_back_delimiters :
    let network : Network Ipv6 := ⟨⟨[0, 0, 0, 0, 0, 0xffff, 0xc000, 0x0201], rfl⟩, some 96⟩
    let directives : List Directive := [⟨.pass, .a (some "-exp=a:b%") .host⟩,
      ⟨.softFail, .mx none ⟨0, 128⟩⟩, ⟨.neutral, .a (some "?a") ⟨32, 0⟩⟩,
      ⟨.fail, .ptr (some "/24")⟩, ⟨.pass, .ip6 (String.ofList network.toChars)⟩]
    ∀ d ∈ directives, d.mechanism.IsWellFormed ∧
      Record.ofText ("v=spf1 " ++ d.render) = .ok ⟨[d], none, none⟩ := by
  intro network directives
  have hdirectives : ∀ d ∈ directives, d.mechanism.IsWellFormed := by
    simp only [directives, List.forall_mem_cons]
    refine ⟨.a _ ?_ ?_, .bareMx _, .a _ ?_ ?_, .ptr ?_, .ip6 network, List.forall_mem_nil _⟩
    all_goals first | exact Text.isWord_of_all_graphic (by decide) | decide
  exact fun d hd => ⟨hdirectives d hd, well_formed_directive_read_back (hdirectives d hd)⟩

end SenderPolicy
