import SenderPolicy.Address.Ipv4
import SenderPolicy.Proofs.Address.Network
import SenderPolicy.Proofs.Text.Separators

/-! The dotted decimal text of an IPv4 address is read back, and so are its two groups. Any text
of an address consists of digits and points. -/
namespace SenderPolicy.Ipv4

theorem octet?_decimal (o : UInt8) : octet? (Text.decimal o.toNat) = some o := by
  have hlt : o.toNat < 256 := o.toNat_lt
  have hlen : (Text.decimal o.toNat).length ≤ 3 := Text.length_decimal_le_three (by omega)
  have hval : Nat.ofDigitChars 10 (Text.decimal o.toNat) 0 = o.toNat :=
    Nat.ofDigitChars_ten_toDigits
  simp only [octet?, hval]
  rw [if_pos ⟨Text.decimal_ne_nil _, hlen, Text.all_isDigit_decimal _,
      Text.length_decimal_eq_one, hlt⟩,
    UInt8.ofNat_toNat]

def octetTexts (a : Ipv4) : List (List Char) :=
  [a.first, a.second, a.third, a.fourth].map fun o => Text.decimal o.toNat

theorem isDigit_of_mem_octetTexts {a : Ipv4} {text : List Char} {c : Char}
    (ht : text ∈ a.octetTexts) (hc : c ∈ text) : c.isDigit = true := by
  obtain ⟨o, -, rfl⟩ := List.mem_map.mp ht
  exact Text.isDigit_of_mem_decimal hc

theorem splitOn_toChars (a : Ipv4) : a.toChars.splitOn '.' = a.octetTexts := by
  refine List.splitOn_intercalate '.' (fun text ht hdot => ?_) (by simp)
  exact absurd (isDigit_of_mem_octetTexts ht hdot) (by decide)

/-- An address is read back from its text. -/
theorem ofChars?_toChars (a : Ipv4) : ofChars? a.toChars = some a := by
  rw [ofChars?, splitOn_toChars]
  simp [octetTexts, octet?_decimal]

theorem toChars_ne_nil (a : Ipv4) : a.toChars ≠ [] := by
  simp [toChars, Text.decimal_ne_nil]

theorem mem_toChars {a : Ipv4} {c : Char} (h : c ∈ a.toChars) : c.isDigit = true ∨ c = '.' := by
  rcases Text.mem_intercalate h with h | ⟨text, ht, hc⟩
  · exact .inr h
  · exact .inl (isDigit_of_mem_octetTexts ht hc)

theorem dot_mem_toChars (a : Ipv4) : '.' ∈ a.toChars := by
  simp [toChars]

theorem isDigit_of_octet? {s : List Char} {o : UInt8} (h : octet? s = some o) {c : Char}
    (hc : c ∈ s) : c.isDigit = true := by
  simp only [octet?] at h
  split at h
  next hplain => exact List.all_eq_true.mp hplain.2.2.1 c hc
  next => cases h

theorem mem_of_ofChars? {s : List Char} {a : Ipv4} (h : ofChars? s = some a) {c : Char}
    (hc : c ∈ s) : c.isDigit = true ∨ c = '.' := by
  have hs : ['.'].intercalate (s.splitOn '.') = s := List.intercalate_splitOn '.'
  rw [← hs] at hc
  rcases Text.mem_intercalate hc with hc | ⟨part, hpart, hc⟩
  · exact .inr hc
  · refine .inl ?_
    -- The parts between the dots are four octets.
    rw [ofChars?] at h
    split at h
    next p q r t hparts =>
      simp only [Option.bind_eq_bind, Option.bind_eq_some_iff] at h
      obtain ⟨o, ho, o', ho', o'', ho'', o''', ho''', -⟩ := h
      rw [hparts] at hpart
      simp only [List.mem_cons, List.not_mem_nil, or_false] at hpart
      rcases hpart with rfl | rfl | rfl | rfl
      · exact isDigit_of_octet? ho hc
      · exact isDigit_of_octet? ho' hc
      · exact isDigit_of_octet? ho'' hc
      · exact isDigit_of_octet? ho''' hc
    next => cases h

instance : LawfulFamily Ipv4 where
  width_lt := by decide
  ofChars?_toChars := ofChars?_toChars
  toChars_ne_nil := toChars_ne_nil
  isAddressChar a c hc := by
    rcases mem_toChars hc with h | h
    · exact isAddressChar_of_isDigit h
    · exact .inr (.inr h)

theorem group_div_mod (g : UInt16) :
    (g / 256).toUInt8.toUInt16 * 256 + (g % 256).toUInt8.toUInt16 = g := by
  apply UInt16.toNat_inj.mp
  have h256 : (256 : UInt16).toNat = 256 := rfl
  simp only [UInt16.toNat_add, UInt16.toNat_mul, UInt8.toNat_toUInt16, UInt16.toNat_toUInt8,
    UInt16.toNat_div, UInt16.toNat_mod, h256]
  have := g.toNat_lt
  omega

/-- The two groups of an address give it back. -/
theorem groups_ofGroups (high low : UInt16) : (ofGroups high low).groups = [high, low] := by
  simp only [groups, ofGroups, group_div_mod]

end SenderPolicy.Ipv4
