import SenderPolicy.Proofs.RecordTerm

/-! What is known of a record that was read. Each mechanism comes from one term, and
whatever the record names is a word: its terms are words, and each value is a part of one
term that is not empty. -/
namespace SenderPolicy.Text

def IsUnbroken (s : List Char) : Prop :=
  ∀ c ∈ s, isBlank c = false

theorem IsUnbroken.of_subset {s t : List Char} (hs : IsUnbroken s) (h : t ⊆ s) : IsUnbroken t :=
  fun c hc => hs c (h hc)

theorem subset_of_cutFirst {sep : Char} {s a b : List Char} (h : cutFirst sep s = some (a, b)) :
    a ⊆ s ∧ b ⊆ s := by
  rw [(eq_append_of_cutFirst h).1]
  exact ⟨List.subset_append_left _ _, fun c hc => by simp [hc]⟩

end SenderPolicy.Text

namespace SenderPolicy

open Text (IsWord IsUnbroken)

def Mechanism.NamesWords : Mechanism → Prop
  | inclusion text | ip4 text | ip6 text | existence text => IsWord text.toList
  | a target? _ | mx target? _ | ptr target? => ∀ text ∈ target?, IsWord text.toList
  | all => True

/-- What can be read back names words. -/
theorem Mechanism.IsWritable.namesWords {m : Mechanism} (h : m.IsWritable) : m.NamesWords := by
  cases m with
  | all => trivial
  | inclusion target | existence target => exact h
  | a target? l | mx target? l => exact fun target ht => (h target ht).1
  | ptr target? => exact h
  | ip4 network | ip6 network =>
    obtain ⟨n, hn⟩ := h
    have hword := n.isWord_toChars
    rwa [← hn] at hword

namespace Record

theorem mem_targetOf_iff {s : List Char} {text : String} :
    text ∈ targetOf s ↔ text.toList = s ∧ s ≠ [] := by
  rw [targetOf, Option.mem_def]
  cases s with
  | nil => simp
  | cons c cs => simp [String.ext_iff, eq_comm]

theorem isWord_of_targetOf {s : List Char} (hs : IsUnbroken s) :
    ∀ text ∈ targetOf s, IsWord text.toList := by
  intro text h
  obtain ⟨rfl, hne⟩ := mem_targetOf_iff.mp h
  exact ⟨hne, hs⟩

theorem required_eq_ok {name : String} {argument? : Option (List Char)} {s : List Char}
    (h : required name argument? = .ok s) : argument? = some s ∧ s ≠ [] := by
  unfold required at h
  split at h
  · obtain rfl := Except.ok.inj h
    exact ⟨rfl, List.cons_ne_nil _ _⟩
  · cases h

theorem isWord_of_required {name : String} {argument? : Option (List Char)} {s : List Char}
    (hs : IsUnbroken (argument?.getD [])) (h : required name argument? = .ok s) :
    IsWord (String.ofList s).toList := by
  obtain ⟨rfl, hne⟩ := required_eq_ok h
  rw [String.toList_ofList]
  exact ⟨hne, hs⟩

theorem isUnbroken_splitTerm {s : List Char} (hs : IsUnbroken s) :
    IsUnbroken ((splitTerm s).2.getD []) := by
  rw [splitTerm]
  split
  next name argument hcut => exact hs.of_subset (Text.subset_of_cutFirst hcut).2
  next =>
    split
    next name length hcut =>
      refine List.forall_mem_cons.mpr ⟨by decide, ?_⟩
      exact hs.of_subset (Text.subset_of_cutFirst hcut).2
    next => exact List.forall_mem_nil _

/-- The target of an `a` or `mx` is what is left of the argument when the lengths are taken
off. The lengths take the doubled slash, and with it the slash that it could start at. -/
theorem targetAndLength_eq_ok {s : List Char} {target? : Option String} {l : DualLength}
    (h : targetAndLength s = .ok (target?, l)) :
    ∃ target, target? = targetOf target ∧ target ⊆ s ∧ Text.cutDouble '/' target = none ∧
      target.getLast? ≠ some '/' := by
  obtain ⟨⟨front, v6⟩, hfront, h⟩ := bind_eq_ok_iff.mp h
  obtain ⟨⟨target, v4⟩, htarget, h⟩ := bind_eq_ok_iff.mp h
  obtain ⟨rfl, -⟩ := Prod.mk.inj (Except.ok.inj h)
  -- What is left in front of the doubled slash has no doubled one.
  have hsingle : front ⊆ s ∧ Text.cutDouble '/' front = none := by
    rw [takeLength6] at hfront
    split at hfront
    next hcut =>
      obtain ⟨n, -, hn⟩ := map_eq_ok_iff.mp hfront
      obtain ⟨rfl, -⟩ := Prod.mk.inj hn
      obtain ⟨rfl, hnone⟩ := Text.eq_append_of_cutDouble hcut
      exact ⟨List.subset_append_left _ _, (Text.cutDouble_front hnone).1⟩
    next hnone =>
      obtain ⟨rfl, -⟩ := Prod.mk.inj (Except.ok.inj hfront)
      exact ⟨List.Subset.refl _, hnone⟩
  refine ⟨target, rfl, ?_⟩
  -- The last slash of what is left may take the first length off, and it goes with it.
  rw [takeLength4] at htarget
  split at htarget
  next hcut =>
    obtain ⟨n, -, hn⟩ := map_eq_ok_iff.mp htarget
    obtain ⟨rfl, -⟩ := Prod.mk.inj hn
    obtain ⟨rfl, -⟩ := Text.eq_append_of_cutLast hcut
    exact ⟨fun c hc => hsingle.1 (List.subset_append_left _ _ hc), Text.cutDouble_front hsingle.2⟩
  next hnone =>
    obtain ⟨rfl, -⟩ := Prod.mk.inj (Except.ok.inj htarget)
    have hslash := Text.cutLast_eq_none_iff.mp hnone
    exact ⟨hsingle.1, hsingle.2, fun hlast => hslash (List.mem_of_getLast? hlast)⟩

/-- A network that was read is in canonical text. -/
theorem readNetwork_eq_ok {α : Type} [AddressFamily α] {invalid : String → RecordError}
    {s : List Char} {text : String} (h : readNetwork α invalid s = .ok text) :
    ∃ n : Network α, text.toList = n.toChars := by
  rw [readNetwork] at h
  split at h
  · cases h
  · split at h
    next n hn =>
      obtain rfl := Except.ok.inj h
      exact ⟨n, String.toList_ofList⟩
    next => cases h

inductive ReadsAs (argument? : Option (List Char)) : Mechanism → Prop
  -- The ways in which a mechanism is read from the argument behind its name.
  | all : ReadsAs argument? .all
  | inclusion {s : List Char} : required "include" argument? = .ok s →
      ReadsAs argument? (.inclusion (String.ofList s))
  | existence {s : List Char} : required "exists" argument? = .ok s →
      ReadsAs argument? (.existence (String.ofList s))
  | a {target? : Option String} {l : DualLength} :
      targetAndLength (argument?.getD []) = .ok (target?, l) → ReadsAs argument? (.a target? l)
  | mx {target? : Option String} {l : DualLength} :
      targetAndLength (argument?.getD []) = .ok (target?, l) → ReadsAs argument? (.mx target? l)
  | ptr : ReadsAs argument? (.ptr (targetOf (argument?.getD [])))
  | ip4 {s : List Char} {network : String} :
      readNetwork Ipv4 .invalidIpv4 s = .ok network → ReadsAs argument? (.ip4 network)
  | ip6 {s : List Char} {network : String} :
      readNetwork Ipv6 .invalidIpv6 s = .ok network → ReadsAs argument? (.ip6 network)

/-- What the argument was read as, mechanism by mechanism. -/
theorem readsAs_of_readMechanism {s : List Char} {m : Mechanism} (h : readMechanism s = .ok m) :
    ReadsAs (splitTerm s).2 m := by
  rw [readMechanism] at h
  generalize splitTerm s = parts at h ⊢
  obtain ⟨name, argument?⟩ := parts
  dsimp only at h ⊢
  -- The terminal takes no argument, and an argument makes it an error.
  split at h
  · split at h
    · cases h
    · obtain rfl := Except.ok.inj h
      exact .all
  -- `include` and `exists` need their argument.
  · obtain ⟨text, htext, h⟩ := bind_eq_ok_iff.mp h
    obtain rfl := Except.ok.inj h
    exact .inclusion htext
  · obtain ⟨text, htext, h⟩ := bind_eq_ok_iff.mp h
    obtain rfl := Except.ok.inj h
    exact .existence htext
  -- `a`, `mx` and `ptr` may go without one.
  · obtain ⟨⟨target?, length⟩, htarget, h⟩ := bind_eq_ok_iff.mp h
    obtain rfl := Except.ok.inj h
    exact .a htarget
  · obtain ⟨⟨target?, length⟩, htarget, h⟩ := bind_eq_ok_iff.mp h
    obtain rfl := Except.ok.inj h
    exact .mx htarget
  · obtain rfl := Except.ok.inj h
    exact .ptr
  -- The texts of `ip4` and `ip6` are canonical, whatever their arguments were.
  · obtain ⟨argument, -, h⟩ := bind_eq_ok_iff.mp h
    obtain ⟨text, htext, h⟩ := bind_eq_ok_iff.mp h
    obtain rfl := Except.ok.inj h
    exact .ip4 htext
  · obtain ⟨argument, -, h⟩ := bind_eq_ok_iff.mp h
    obtain ⟨text, htext, h⟩ := bind_eq_ok_iff.mp h
    obtain rfl := Except.ok.inj h
    exact .ip6 htext
  · cases h

/-- A mechanism that was read from a term names words, as the term has no blanks. -/
theorem namesWords_of_readMechanism {s : List Char} {m : Mechanism} (hs : IsUnbroken s)
    (h : readMechanism s = .ok m) : m.NamesWords := by
  have hargument := isUnbroken_splitTerm hs
  cases readsAs_of_readMechanism h with
  | all => trivial
  | inclusion htext | existence htext => exact isWord_of_required hargument htext
  | a htarget | mx htarget =>
    obtain ⟨target, rfl, hsubset, -⟩ := targetAndLength_eq_ok htarget
    exact isWord_of_targetOf (hargument.of_subset hsubset)
  | ptr => exact isWord_of_targetOf hargument
  | ip4 htext | ip6 htext =>
    obtain ⟨n, hn⟩ := readNetwork_eq_ok htext
    have hword := n.isWord_toChars
    rwa [← hn] at hword

theorem readMechanism_of_readDirective {s : List Char} {d : Directive} (hs : IsUnbroken s)
    (h : readDirective s = .ok d) : ∃ s', IsUnbroken s' ∧ readMechanism s' = .ok d.mechanism := by
  obtain ⟨m, hm, hd⟩ := bind_eq_ok_iff.mp h
  obtain rfl := Except.ok.inj hd
  refine ⟨_, hs.of_subset ?_, hm⟩
  cases s with
  | nil => exact List.Subset.refl _
  | cons c cs =>
    dsimp only
    split
    · exact List.subset_cons_self c cs
    · exact List.Subset.refl _

structure IsRead (r : Record) : Prop where
  -- Each mechanism was read from a text without blanks, and the redirect is a word.
  mechanism : ∀ d ∈ r.directives, ∃ s, IsUnbroken s ∧ readMechanism s = .ok d.mechanism
  redirect : ∀ target ∈ r.redirect?, IsWord target.toList

/-- A modifier keeps what is known of the record. -/
theorem isRead_addModifier {r r' : Record} {name value : List Char} (hr : r.IsRead)
    (hvalue : IsUnbroken value) (h : r.addModifier name value = .ok r') : r'.IsRead := by
  rcases addModifier_eq_ok_iff.mp h with ⟨m, -, -, haccepts, rfl⟩ | ⟨-, rfl⟩
  · cases m with
    | redirect =>
      refine ⟨hr.mechanism, fun target htarget => ?_⟩
      obtain rfl := Option.some.inj htarget
      rw [String.toList_ofList]
      exact ⟨haccepts, hvalue⟩
    | explanation => exact ⟨hr.mechanism, hr.redirect⟩
  · exact hr

theorem isRead_addTerm {r r' : Record} {term : List Char} (hr : r.IsRead)
    (hterm : IsUnbroken term) (h : r.addTerm term = .ok r') : r'.IsRead := by
  rcases addTerm_eq_ok_iff.mp h with ⟨name, value, hmodifier, h⟩ | ⟨-, d, hd, rfl⟩
  · have hcut : Text.cutFirst '=' term = some (name, value) :=
      (Option.filter_eq_some_iff.mp hmodifier).1
    exact isRead_addModifier hr (hterm.of_subset (Text.subset_of_cutFirst hcut).2) h
  · refine ⟨List.forall_mem_append.mpr ⟨hr.mechanism, ?_⟩, hr.redirect⟩
    exact List.forall_mem_singleton.mpr (readMechanism_of_readDirective hterm hd)

theorem isRead_foldlM {terms : List (List Char)} {r r' : Record} (hr : r.IsRead)
    (hterms : ∀ t ∈ terms, IsUnbroken t) (h : terms.foldlM addTerm r = .ok r') : r'.IsRead := by
  induction terms generalizing r with
  | nil =>
    obtain rfl := Except.ok.inj h
    exact hr
  | cons term terms ih =>
    obtain ⟨hterm, hterms⟩ := List.forall_mem_cons.mp hterms
    rw [List.foldlM_cons] at h
    obtain ⟨next, hnext, h⟩ := bind_eq_ok_iff.mp h
    exact ih (isRead_addTerm hr hterm hnext) hterms h

theorem isRead_of_ofText {text : String} {r : Record} (h : ofText text = .ok r) : r.IsRead := by
  rw [ofText] at h
  split at h
  next version terms hwords =>
    split at h
    · refine isRead_foldlM ⟨List.forall_mem_nil _, by simp [empty]⟩ (fun t ht => ?_) h
      have hmem : t ∈ Text.words text.toList := hwords ▸ List.mem_cons_of_mem _ ht
      exact (Text.isWord_of_mem_words hmem).not_blank
    · cases h
  next => cases h

structure NamesWords (r : Record) : Prop where
  mechanism : ∀ d ∈ r.directives, d.mechanism.NamesWords
  redirect : ∀ target ∈ r.redirect?, IsWord target.toList

theorem IsRead.namesWords {r : Record} (h : r.IsRead) : r.NamesWords where
  mechanism d hd := by
    obtain ⟨s, hs, hm⟩ := h.mechanism d hd
    exact namesWords_of_readMechanism hs hm
  redirect := h.redirect

theorem namesWords_of_ofText {text : String} {r : Record} (h : ofText text = .ok r) :
    r.NamesWords :=
  (isRead_of_ofText h).namesWords

end Record
end SenderPolicy
