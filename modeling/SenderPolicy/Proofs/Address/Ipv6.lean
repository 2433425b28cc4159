import SenderPolicy.Address.Ipv6
import SenderPolicy.Proofs.Address.Ipv4

/-! The recommended text of an IPv6 address is read back: groups in full, a run of zero
groups that was left out, and the dotted quad of a mapped address. -/
namespace SenderPolicy.Ipv6

def groupText (g : UInt16) : List Char :=
  Nat.toDigits 16 g.toNat

theorem groupText_ne_nil (g : UInt16) : groupText g ≠ [] :=
  Nat.toDigits_ne_nil

theorem isAlphanum_of_mem_groupText {g : UInt16} {c : Char} (h : c ∈ groupText g) :
    c.isAlphanum = true := by
  obtain ⟨d, hd, rfl⟩ := Text.mem_toDigits h
  have digits : ∀ d < 16, (Nat.digitChar d).isAlphanum = true := by decide
  exact digits d hd

theorem group?_groupText (g : UInt16) : group? (groupText g) = some g := by
  have hlen : (groupText g).length ≤ 4 :=
    (Nat.length_toDigits_le_iff (by decide) (by decide)).mpr g.toNat_lt
  rw [group?, if_pos ⟨groupText_ne_nil g, hlen⟩, groupText, Text.natOfDigits?_toDigits]
  simp

theorem mapM_group? (gs : List UInt16) : (gs.map groupText).mapM group? = some gs := by
  induction gs with
  | nil => rfl
  | cons g gs ih => simp [group?_groupText, ih]

theorem groups?_map_groupText (gs : List UInt16) : groups? (gs.map groupText) = some gs := by
  induction gs with
  | nil => rfl
  | cons g gs ih =>
    cases gs with
    | nil => simp [groups?, group?_groupText]
    | cons g' gs =>
      rw [List.map_cons] at ih ⊢
      simp [groups?, group?_groupText, ih]

theorem groupsText_eq (gs : List UInt16) : groupsText gs = [':'].intercalate (gs.map groupText) :=
  rfl

theorem groupTexts_separable (gs : List UInt16) :
    ∀ text ∈ gs.map groupText, text ≠ [] ∧ ':' ∉ text := by
  intro text ht
  obtain ⟨g, -, rfl⟩ := List.mem_map.mp ht
  refine ⟨groupText_ne_nil g, fun hcolon => ?_⟩
  exact absurd (isAlphanum_of_mem_groupText hcolon) (by decide)

theorem parts_groupsText (gs : List UInt16) : parts (groupsText gs) = gs.map groupText := by
  cases gs with
  | nil => rfl
  | cons g gs =>
    have hne : (groupsText (g :: gs)).isEmpty = false := by
      have := groupText_ne_nil g
      cases gs <;> simp [groupsText_eq, this]
    rw [parts, hne, groupsText_eq]
    exact List.splitOn_intercalate ':' (fun text ht => (groupTexts_separable _ text ht).2) (by simp)

theorem mem_groupsText {gs : List UInt16} {c : Char} (h : c ∈ groupsText gs) :
    IsAddressChar c := by
  rcases Text.mem_intercalate h with rfl | ⟨text, ht, hc⟩
  · exact .inr (.inl rfl)
  · obtain ⟨g, -, rfl⟩ := List.mem_map.mp ht
    exact .inl (isAlphanum_of_mem_groupText hc)

/-- The run with what stands around it is the whole list. -/
theorem longestZeroRun_append (gs : List UInt16) :
    (longestZeroRun gs).before ++ List.replicate (longestZeroRun gs).length 0 ++
      (longestZeroRun gs).after = gs := by
  induction gs with
  | nil => rfl
  | cons g gs ih =>
    rw [longestZeroRun]
    -- The zeros at the front win over every run behind them that is no longer.
    split
    · let zeros := (g :: gs).takeWhile (· == 0)
      have hzeros : zeros = List.replicate zeros.length 0 :=
        List.eq_replicate_iff.mpr ⟨rfl, fun x hx => by simpa using List.mem_takeWhile_imp hx⟩
      have htake : zeros = (g :: gs).take zeros.length :=
        List.prefix_iff_eq_take.mp (List.takeWhile_prefix _)
      calc [] ++ List.replicate zeros.length 0 ++ (g :: gs).drop zeros.length
          = (g :: gs).take zeros.length ++ (g :: gs).drop zeros.length := by
            rw [List.nil_append, ← hzeros, ← htake]
        _ = g :: gs := List.take_append_drop _ _
    · simpa using ih

/-- Eight groups in full are read back. -/
theorem ofChars?_groupsText (a : Ipv6) : ofChars? (groupsText a.groups) = some a := by
  have hsingle : Text.cutDouble ':' (groupsText a.groups) = none :=
    Text.cutDouble_intercalate (groupTexts_separable a.groups)
  rw [ofChars?, hsingle]
  simp [parts_groupsText, groups?_map_groupText, ofGroups?, a.length_groups]

/-- A doubled colon for the zeros between `before` and `after`. -/
theorem ofChars?_compressed {before after : List UInt16} {n : Nat} (hn : n ≠ 0)
    (h : (before ++ List.replicate n 0 ++ after).length = 8) :
    ofChars? (groupsText before ++ [':', ':'] ++ groupsText after) =
      some ⟨before ++ List.replicate n 0 ++ after, h⟩ := by
  have hcut : Text.cutDouble ':' (groupsText before ++ ':' :: ':' :: groupsText after) =
      some (groupsText before, groupsText after) :=
    Text.cutDouble_append_cons_cons (Text.cutDouble_intercalate (groupTexts_separable before))
      (Text.getLast?_intercalate_ne (groupTexts_separable before)) _
  have hlen := h
  -- As many zeros are put in as are missing to eight groups.
  simp only [List.length_append, List.length_replicate] at hlen
  have hzeros : 8 - before.length - after.length = n := by omega
  have hle : before.length + after.length ≤ 7 := by omega
  rw [ofChars?, List.append_assoc, List.cons_append, List.cons_append, List.nil_append, hcut]
  simp only [parts_groupsText, mapM_group?, groups?_map_groupText, Option.bind_eq_bind,
    Option.bind_some, if_pos hle, hzeros]
  rw [ofGroups?, dif_pos h]

/-- An IPv4 address at the end is not taken for a group. -/
theorem group?_dottedQuad (a : Ipv4) : group? a.toChars = none := by
  rw [group?, Text.natOfDigits?_eq_none a.dot_mem_toChars (by decide)]
  simp

/-- The dotted quad of a mapped address stands for its last two groups. -/
theorem ofChars?_mapped (high low : UInt16) :
    ofChars? ([':', ':', 'f', 'f', 'f', 'f', ':'] ++ (Ipv4.ofGroups high low).toChars) =
      some ⟨[0, 0, 0, 0, 0, 0xffff, high, low], rfl⟩ := by
  let quad := (Ipv4.ofGroups high low).toChars
  have hcolon : ':' ∉ quad := by
    intro h
    rcases Ipv4.mem_toChars h with h | h
    · exact absurd h (by decide)
    · exact absurd h (by decide)
  have hcut : Text.cutDouble ':' (':' :: ':' :: 'f' :: 'f' :: 'f' :: 'f' :: ':' :: quad) =
      some ([], ['f', 'f', 'f', 'f'] ++ ':' :: quad) := by
    simp [Text.cutDouble]
  have hparts : parts (['f', 'f', 'f', 'f'] ++ ':' :: quad) = [['f', 'f', 'f', 'f'], quad] := by
    rw [parts, List.isEmpty_eq_false_iff.mpr (by simp), if_neg Bool.false_ne_true,
      List.splitOn_append_cons_self_of_not_mem (by decide), List.splitOn_eq_singleton hcolon]
  -- Only the last part may be a dotted quad, after it was tried as a group.
  have hgroups : groups? [['f', 'f', 'f', 'f'], quad] = some [0xffff, high, low] := by
    have hffff : group? ['f', 'f', 'f', 'f'] = some 0xffff := by decide
    have hquad : Ipv4.ofChars? quad = some (Ipv4.ofGroups high low) := Ipv4.ofChars?_toChars _
    have hnone : group? quad = none := group?_dottedQuad _
    simp [groups?, hffff, hnone, hquad, Ipv4.groups_ofGroups]
  show ofChars? (':' :: ':' :: 'f' :: 'f' :: 'f' :: 'f' :: ':' :: quad) = _
  rw [ofChars?, hcut]
  simp only [hparts, hgroups]
  rfl

def IsMapped (a : Ipv6) : Prop :=
  ∃ high low, a.groups = [0, 0, 0, 0, 0, 0xffff, high, low]

/-- A mapped address ends in an IPv4 address. -/
theorem toChars_of_mapped {a : Ipv6} {high low : UInt16}
    (h : a.groups = [0, 0, 0, 0, 0, 0xffff, high, low]) :
    a.toChars = "::ffff:".toList ++ (Ipv4.ofGroups high low).toChars := by
  rw [toChars, h]
  rfl

/-- Any other address is written in groups, and its longest run of zeros is cut from two on. -/
theorem toChars_of_not_isMapped {a : Ipv6} (h : ¬ a.IsMapped) :
    a.toChars = if (longestZeroRun a.groups).length ≤ 1 then groupsText a.groups
      else groupsText (longestZeroRun a.groups).before ++ "::".toList ++
        groupsText (longestZeroRun a.groups).after := by
  unfold toChars
  split
  next high low hgroups => exact absurd ⟨high, low, hgroups⟩ h
  next => rfl

/-- How an address is written. -/
theorem toChars_cases (a : Ipv6) :
    (∃ high low, a.groups = [0, 0, 0, 0, 0, 0xffff, high, low] ∧
      a.toChars =
        [':', ':', 'f', 'f', 'f', 'f', ':'] ++ (Ipv4.ofGroups high low).toChars) ∨
    a.toChars = groupsText a.groups ∨
    ∃ before n after, 2 ≤ n ∧ a.groups = before ++ List.replicate n 0 ++ after ∧
      a.toChars = groupsText before ++ [':', ':'] ++ groupsText after := by
  by_cases hmapped : a.IsMapped
  · obtain ⟨high, low, h⟩ := hmapped
    exact .inl ⟨high, low, h, toChars_of_mapped h⟩
  · rw [toChars_of_not_isMapped hmapped]
    by_cases hrun : (longestZeroRun a.groups).length ≤ 1
    · exact .inr (.inl (if_pos hrun))
    · exact .inr (.inr ⟨_, _, _, by omega, (longestZeroRun_append a.groups).symm, if_neg hrun⟩)

/-- An address is read back from its recommended text. -/
theorem ofChars?_toChars (a : Ipv6) : ofChars? a.toChars = some a := by
  obtain ⟨groups, hlen⟩ := a
  rcases toChars_cases ⟨groups, hlen⟩ with
    ⟨high, low, hgroups, htext⟩ | htext | ⟨before, n, after, hn, hgroups, htext⟩
  · obtain rfl : groups = _ := hgroups
    rw [htext, ofChars?_mapped]
  · rw [htext, ofChars?_groupsText]
  · obtain rfl : groups = _ := hgroups
    rw [htext, ofChars?_compressed (by omega) hlen]

theorem mem_toChars {a : Ipv6} {c : Char} (h : c ∈ a.toChars) : IsAddressChar c := by
  rcases toChars_cases a with ⟨high, low, -, htext⟩ | htext | ⟨before, n, after, -, -, htext⟩
  · rw [htext, List.mem_append] at h
    rcases h with h | h
    · have hlead : ([':', ':', 'f', 'f', 'f', 'f', ':'].all fun c =>
          decide (c.isAlphanum = true ∨ c = ':' ∨ c = '.')) = true := by decide
      have hc : c.isAlphanum = true ∨ c = ':' ∨ c = '.' :=
        of_decide_eq_true (List.all_eq_true.mp hlead c h)
      exact hc
    · rcases Ipv4.mem_toChars h with h | h
      · exact isAddressChar_of_isDigit h
      · exact .inr (.inr h)
  · exact mem_groupsText (htext ▸ h)
  · rw [htext, List.mem_append, List.mem_append] at h
    rcases h with (h | h) | h
    · exact mem_groupsText h
    · exact .inr (.inl (by simpa using h))
    · exact mem_groupsText h

theorem toChars_ne_nil (a : Ipv6) : a.toChars ≠ [] := by
  intro h
  have hread := ofChars?_toChars a
  rw [h] at hread
  exact absurd hread (by simp [ofChars?, Text.cutDouble, parts, groups?, ofGroups?])

/-- One part stands for two groups at most. -/
theorem length_groups?_single {s : List Char} {gs : List UInt16} (h : groups? [s] = some gs) :
    gs.length ≤ 2 := by
  rw [groups?] at h
  split at h
  next g _ =>
    obtain rfl := Option.some.inj h
    exact Nat.le_succ 1
  next =>
    obtain ⟨a, -, rfl⟩ := Option.map_eq_some_iff.mp h
    exact Nat.le_refl 2

/-- Eight groups need a colon between them. -/
theorem colon_mem_of_ofChars? {s : List Char} {a : Ipv6} (h : ofChars? s = some a) : ':' ∈ s := by
  by_contra hcolon
  rw [ofChars?, Text.cutDouble_eq_none hcolon] at h
  simp only [Option.bind_eq_bind, Option.bind_eq_some_iff] at h
  obtain ⟨gs, hgs, hgroups⟩ := h
  have hlen : gs.length ≤ 2 := by
    rw [parts] at hgs
    split at hgs
    next =>
      obtain rfl := Option.some.inj hgs
      exact Nat.zero_le _
    next =>
      rw [List.splitOn_eq_singleton hcolon] at hgs
      exact length_groups?_single hgs
  rw [ofGroups?, dif_neg (by omega)] at hgroups
  cases hgroups

instance : LawfulFamily Ipv6 where
  width_lt := by decide
  ofChars?_toChars := ofChars?_toChars
  toChars_ne_nil := toChars_ne_nil
  isAddressChar _ _ := mem_toChars

end SenderPolicy.Ipv6
