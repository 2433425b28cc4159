import SenderPolicy.Proofs.NetworkTerm

/-! The two readers of prefix lengths. That of networks looks at the text first and that of record
terms at the number, and for all bounds below 256 both take the same numerals. -/
namespace SenderPolicy

namespace PrefixLength

structure IsNumeral (n : Nat) (s : List Char) : Prop where
  -- One to three digits that denote `n`. Zeros may stand in front.
  one_le_length : 1 ≤ s.length
  length_le : s.length ≤ 3
  digits : ∀ c ∈ s, c.isDigit = true
  value_eq : Nat.ofDigitChars 10 s 0 = n

theorem IsNumeral.slash_not_mem {n : Nat} {s : List Char} (h : IsNumeral n s) : '/' ∉ s := by
  intro hslash
  exact absurd (h.digits '/' hslash) (by decide)

theorem isLength_iff {max : Nat} {s : List Char} :
    IsLength max s ↔ ∃ n : PrefixLength max, IsNumeral n.val s := by
  constructor
  · rintro ⟨hone, hthree, hdigits, hle⟩
    exact ⟨⟨_, Nat.lt_succ_of_le hle⟩, hone, hthree, hdigits, rfl⟩
  · rintro ⟨n, h⟩
    refine ⟨h.one_le_length, h.length_le, h.digits, ?_⟩
    rw [h.value_eq]
    exact Nat.le_of_lt_succ n.isLt

variable {max : Nat} {s address : List Char} {n : PrefixLength max}

theorem isNumeral_of_ofChars? (h : ofChars? max s = some n) : IsNumeral n.val s := by
  rw [ofChars?] at h
  split at h
  next hplain =>
    obtain ⟨hne, hthree, hdigits⟩ := hplain
    by_cases hle : Nat.ofDigitChars 10 s 0 ≤ max
    · obtain rfl := Option.some.inj ((dif_pos hle).symm.trans h)
      exact ⟨List.length_pos_iff.mpr hne, hthree, List.all_eq_true.mp hdigits, rfl⟩
    · cases (dif_neg hle).symm.trans h
  next => cases h

/-- The reader of networks accepts exactly the numerals of lengths. -/
theorem ofChars?_eq_some_iff : ofChars? max s = some n ↔ IsNumeral n.val s := by
  refine ⟨isNumeral_of_ofChars?, fun h => ?_⟩
  cases hread : ofChars? max s with
  | none => exact absurd (isLength_iff.mpr ⟨n, h⟩) (ofChars?_eq_none_iff.mp hread)
  | some m =>
    -- The digits denote one number.
    have hval : m.val = n.val := (isNumeral_of_ofChars? hread).value_eq.symm.trans h.value_eq
    rw [Fin.ext hval]

theorem split?_eq_address_iff : split? max s = some (address, none) ↔ address = s ∧ '/' ∉ s := by
  constructor
  · intro h
    cases hcut : Text.cutLast '/' s with
    | none =>
      have hslash := Text.cutLast_eq_none_iff.mp hcut
      rw [split?_of_not_mem hslash] at h
      exact ⟨(congrArg Prod.fst (Option.some.inj h)).symm, hslash⟩
    | some cut => simp [split?, hcut] at h
  · rintro ⟨rfl, hslash⟩
    exact split?_of_not_mem hslash

/-- A length is split off exactly if its numeral stands behind the last slash. -/
theorem split?_eq_network_iff : split? max s = some (address, some n) ↔
    ∃ length, s = address ++ '/' :: length ∧ IsNumeral n.val length := by
  constructor
  · intro h
    cases hcut : Text.cutLast '/' s with
    | none =>
      rw [split?_of_not_mem (Text.cutLast_eq_none_iff.mp hcut)] at h
      cases h
    | some cut =>
      obtain ⟨hs, hslash⟩ := Text.eq_append_of_cutLast hcut
      rw [hs, split?_append _ hslash, Option.map_eq_some_iff] at h
      obtain ⟨m, hm, hpair⟩ := h
      obtain ⟨rfl, rfl⟩ : cut.1 = address ∧ m = n := by simpa using hpair
      exact ⟨cut.2, hs, ofChars?_eq_some_iff.mp hm⟩
  · rintro ⟨length, rfl, h⟩
    rw [split?_append address h.slash_not_mem, ofChars?_eq_some_iff.mpr h]
    rfl

end PrefixLength

namespace Record

open PrefixLength

variable {max : Nat} {s : List Char}

/-- The reader of terms accepts the same numerals, since every length is a byte. -/
theorem readLength_eq_ok_iff (hmax : max < 256) {n : PrefixLength max} :
    readLength max s = .ok n ↔ IsNumeral n.val s := by
  rw [readLength_eq hmax, ← ofChars?_eq_some_iff]
  cases ofChars? max s <;> simp

/-- What is no length is refused and quoted. -/
theorem readLength_of_not_isLength (hmax : max < 256) (h : ¬ IsLength max s) :
    readLength max s = .error (.invalidLength (String.ofList s)) := by
  rw [readLength_eq hmax, ofChars?_eq_none_iff.mpr h]

end Record

/-- Behind the last slash of a network and in a record term the same texts are read as the same
prefix lengths: one to three digits with a value of at most `max`. Any other text spoils the
network, and is reported in the term. A network without a slash has no length, and one with a
length is its address, a slash and the digits. -/
theorem prefix_length_readers_agree {max : Nat} (hmax : max < 256) :
    (∀ address s : List Char, '/' ∉ s →
      (∀ n : PrefixLength max,
        (PrefixLength.split? max (address ++ '/' :: s) = some (address, some n) ↔
          Record.readLength max s = .ok n) ∧
        (Record.readLength max s = .ok n ↔ PrefixLength.IsNumeral n.val s)) ∧
      ((¬ ∃ n : PrefixLength max, PrefixLength.IsNumeral n.val s) →
        PrefixLength.split? max (address ++ '/' :: s) = none ∧
          Record.readLength max s = .error (.invalidLength (String.ofList s)))) ∧
    (∀ raw address : List Char,
      PrefixLength.split? max raw = some (address, none) ↔ address = raw ∧ '/' ∉ raw) ∧
    ∀ (raw address : List Char) (n : PrefixLength max),
      PrefixLength.split? max raw = some (address, some n) ↔
        ∃ length, raw = address ++ '/' :: length ∧ PrefixLength.IsNumeral n.val length := by
  refine ⟨fun address s hslash => ⟨fun n => ⟨?_, Record.readLength_eq_ok_iff hmax⟩, fun h => ?_⟩,
    fun _ _ => PrefixLength.split?_eq_address_iff, fun _ _ _ => PrefixLength.split?_eq_network_iff⟩
  · rw [Record.readLength_eq_ok_iff hmax, PrefixLength.split?_append address hslash,
      Option.map_eq_some_iff, ← PrefixLength.ofChars?_eq_some_iff]
    simp
  · rw [← PrefixLength.isLength_iff] at h
    rw [PrefixLength.split?_append address hslash, PrefixLength.ofChars?_eq_none_iff.mpr h]
    exact ⟨rfl, Record.readLength_of_not_isLength hmax h⟩

/-- Zeros in front are read. A sign and a fourth digit are not, although the text is the number
of a byte, and neither is a number above the bound. -/
theorem prefix_length_readers_agree_byte :
    PrefixLength.split? 128 "a/b/007".toList = some ("a/b".toList, some 7) ∧
      Record.readLength 128 "007".toList = .ok 7 ∧
      Text.byte? "+8".toList = some 8 ∧ Text.byte? "0008".toList = some 8 ∧
      ∀ s ∈ ["+8", "0008", "129", "256", "٣", ""],
        PrefixLength.split? 128 ("a".toList ++ '/' :: s.toList) = none ∧
          Record.readLength 128 s.toList = .error (.invalidLength s) := by
  obtain ⟨hread, -, hnetwork⟩ := prefix_length_readers_agree (by decide : 128 < 256)
  have hseven : PrefixLength.IsNumeral 7 "007".toList :=
    PrefixLength.ofChars?_eq_some_iff.mp (by decide : PrefixLength.ofChars? 128 _ = some 7)
  have hother : ∀ s ∈ ["+8", "0008", "129", "256", "٣", ""],
      '/' ∉ s.toList ∧ PrefixLength.ofChars? 128 s.toList = none := by
    decide
  refine ⟨(hnetwork _ _ _).mpr ⟨"007".toList, rfl, hseven⟩, ?_, by decide, by decide, ?_⟩
  · exact ((hread "a/b".toList _ hseven.slash_not_mem).1 7).2.mpr hseven
  · intro s hs
    obtain ⟨hslash, hlength⟩ := hother s hs
    rw [PrefixLength.ofChars?_eq_none_iff, PrefixLength.isLength_iff] at hlength
    have h := (hread "a".toList s.toList hslash).2 hlength
    rwa [String.ofList_toList] at h

end SenderPolicy
