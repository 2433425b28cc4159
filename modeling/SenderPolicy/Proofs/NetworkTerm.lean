import SenderPolicy.Proofs.RecordText
import SenderPolicy.Proofs.Validation

/-! A record and a request read networks alike. An `ip4` or `ip6` term is accepted exactly if
its argument is a valid value, and both keep the same text of it. The term also tells a bad
prefix length from a bad address. -/
namespace SenderPolicy

namespace PrefixLength

def IsLength (max : Nat) (s : List Char) : Prop :=
  1 ≤ s.length ∧ s.length ≤ 3 ∧ (∀ c ∈ s, c.isDigit = true) ∧ Nat.ofDigitChars 10 s 0 ≤ max

def IsMissing (max : Nat) (s : List Char) : Prop :=
  -- There is a slash, and no prefix length behind the last one.
  ∃ address length, s = address ++ '/' :: length ∧ '/' ∉ length ∧ ¬ IsLength max length

theorem ofChars?_eq_none_iff {max : Nat} {s : List Char} :
    ofChars? max s = none ↔ ¬ IsLength max s := by
  have hshape : (s ≠ [] ∧ s.length ≤ 3 ∧ s.all Char.isDigit = true) ∧ Nat.ofDigitChars 10 s 0 ≤ max ↔
      IsLength max s := by
    rw [IsLength, Nat.one_le_iff_ne_zero, ne_eq, ne_eq, List.length_eq_zero_iff, List.all_eq_true,
      and_assoc, and_assoc]
  rw [← hshape, ofChars?]
  by_cases hdigits : s ≠ [] ∧ s.length ≤ 3 ∧ s.all Char.isDigit = true
  · rw [if_pos hdigits, and_iff_right hdigits]
    by_cases hle : Nat.ofDigitChars 10 s 0 ≤ max
    · simp [hle]
    · simp [hle]
  · rw [if_neg hdigits]
    exact iff_of_true rfl fun h => hdigits h.1

/-- A length is missing if there is a slash and no length behind the last one. -/
theorem split?_eq_none_iff {max : Nat} {s : List Char} :
    split? max s = none ↔ IsMissing max s := by
  constructor
  · intro h
    cases hcut : Text.cutLast '/' s with
    | none =>
      rw [split?_of_not_mem (Text.cutLast_eq_none_iff.mp hcut)] at h
      cases h
    | some cut =>
      obtain ⟨hs, hlength⟩ := Text.eq_append_of_cutLast hcut
      refine ⟨cut.1, cut.2, hs, hlength, ?_⟩
      rw [hs, split?_append _ hlength, Option.map_eq_none_iff] at h
      exact ofChars?_eq_none_iff.mp h
  · intro h
    obtain ⟨address, length, rfl, hlength, hbad⟩ := h
    rw [split?_append _ hlength, ofChars?_eq_none_iff.mpr hbad]
    rfl

instance (max : Nat) (s : List Char) : Decidable (IsMissing max s) :=
  decidable_of_iff (split? max s = none) split?_eq_none_iff

end PrefixLength

namespace Record

section Networks

variable {α : Type} [AddressFamily α] {s : List Char}

/-- Without a prefix length there is no network. -/
theorem ofChars?_of_isMissing (h : PrefixLength.IsMissing (AddressFamily.width α) s) :
    (Network.ofChars? s : Option (Network α)) = none := by
  rw [Network.ofChars?, PrefixLength.split?_eq_none_iff.mpr h]
  rfl

/-- A missing length is reported before the address is looked at. -/
theorem readNetwork_of_isMissing (h : PrefixLength.IsMissing (AddressFamily.width α) s)
    (invalid : String → RecordError) :
    readNetwork α invalid s = .error (.invalidLength (String.ofList s)) := by
  rw [readNetwork, PrefixLength.split?_eq_none_iff.mpr h]
  rfl

theorem readNetwork_of_not_isMissing (h : ¬ PrefixLength.IsMissing (AddressFamily.width α) s)
    (invalid : String → RecordError) : readNetwork α invalid s =
      match (Network.ofChars? s : Option (Network α)) with
      | some n => .ok (String.ofList n.toChars)
      | none => .error (invalid (String.ofList s)) := by
  have hsplit : ¬ (PrefixLength.split? (AddressFamily.width α) s).isNone = true := by
    rwa [Option.isNone_iff_eq_none, PrefixLength.split?_eq_none_iff]
  exact if_neg hsplit

/-- A term is accepted exactly if validation accepts it, with the same canonical text. -/
theorem readNetwork_eq_ok_iff {invalid : String → RecordError} {reason : Reason} {text : String} :
    readNetwork α invalid s = .ok text ↔ Validation.network α reason s = .ok text.toList := by
  rw [Validation.network_eq_ok_iff]
  by_cases hmissing : PrefixLength.IsMissing (AddressFamily.width α) s
  · simp [readNetwork_of_isMissing hmissing, ofChars?_of_isMissing (α := α) hmissing]
  · rw [readNetwork_of_not_isMissing hmissing]
    cases (Network.ofChars? s : Option (Network α)) with
    | none => simp
    | some n => simp [String.ext_iff, eq_comm]

/-- The error says whether the length or the address is at fault, where validation gives one reason
for both. -/
theorem readNetwork_eq_error_iff {invalid : String → RecordError} {e : RecordError}
    (reason : Reason) : readNetwork α invalid s = .error e ↔
      Validation.network α reason s = .error reason ∧
        (PrefixLength.IsMissing (AddressFamily.width α) s ∧ e = .invalidLength (String.ofList s) ∨
          ¬ PrefixLength.IsMissing (AddressFamily.width α) s ∧ e = invalid (String.ofList s)) := by
  rw [Validation.network]
  by_cases hmissing : PrefixLength.IsMissing (AddressFamily.width α) s
  · have hnone := ofChars?_of_isMissing hmissing
    simp [readNetwork_of_isMissing hmissing, hnone, hmissing, eq_comm]
  · rw [readNetwork_of_not_isMissing hmissing]
    cases (Network.ofChars? s : Option (Network α)) with
    | none => simp [hmissing, eq_comm]
    | some n => simp

end Networks

/-- A term with a colon behind its name is a directive, whatever its argument holds. -/
theorem ofText_colon {name argument : String} (hname : name.toList ≠ [])
    (hall : name.toList.all Char.isAlphanum = true)
    (hargument : ∀ c ∈ argument.toList, Text.isBlank c = false) :
    ofText ("v=spf1 " ++ (name ++ ":" ++ argument)) =
      (readMechanism (name.toList ++ ':' :: argument.toList)).map
        fun m => ⟨[⟨.pass, m⟩], none, none⟩ := by
  have hchars : ∀ c ∈ name.toList, c.isAlphanum = true := List.all_eq_true.mp hall
  have hterm : (name ++ ":" ++ argument).toList = name.toList ++ ':' :: argument.toList := by simp
  have hword : Text.IsWord (name ++ ":" ++ argument).toList := by
    rw [hterm]
    refine ⟨by simp, List.forall_mem_append.mpr ⟨fun c hc => ?_, ?_⟩⟩
    · exact (Text.isGraphic_of_isAlphanum (hchars c hc)).isBlank_eq
    · exact List.forall_mem_cons.mpr ⟨by decide, hargument⟩
  have hmodifier : modifier? (name ++ ":" ++ argument).toList = none := by
    have hequals : '=' ∉ name.toList := fun h => absurd (hchars '=' h) (by decide)
    rw [hterm]
    exact modifier?_eq_none hequals (.inr rfl)
  rw [ofText_single hword hmodifier, hterm]
  -- The name does not start with a sign.
  obtain ⟨c, cs, hcons⟩ := List.exists_cons_of_ne_nil hname
  have hc : c.isAlphanum = true := hchars c (hcons ▸ List.mem_cons_self)
  rw [hcons, List.cons_append, readDirective, takeSign_of_isAlphanum hc]
  dsimp only
  cases readMechanism (c :: (cs ++ ':' :: argument.toList)) <;> rfl

structure IsNetworkTerm (α : Type) [AddressFamily α] (kind : Kind) (mechanism : String → Mechanism)
    (invalid : String → RecordError) (reason : Reason) : Prop where
  -- How networks of one family are written in a record and checked in a request.
  name_ne_nil : kind.name.toList ≠ []
  all_isAlphanum : kind.name.toList.all Char.isAlphanum = true
  readMechanism_eq : ∀ s ≠ [], readMechanism (kind.name.toList ++ ':' :: s) =
    (readNetwork α invalid s).map mechanism
  check_eq : ∀ style s, Validation.check style kind s = Validation.network α reason s

theorem isNetworkTerm_ip4 : IsNetworkTerm Ipv4 .ip4 .ip4 .invalidIpv4 .invalidIpv4 where
  name_ne_nil := by decide
  all_isAlphanum := by decide
  readMechanism_eq s hs := by
    rw [readMechanism, splitTerm_colon (by decide)]
    simp only [Text.lower, required_of_ne_nil hs, ok_bind]
    cases readNetwork Ipv4 .invalidIpv4 s <;> simp [Except.map, Kind.name]
  check_eq _ _ := rfl

theorem isNetworkTerm_ip6 : IsNetworkTerm Ipv6 .ip6 .ip6 .invalidIpv6 .invalidIpv6 where
  name_ne_nil := by decide
  all_isAlphanum := by decide
  readMechanism_eq s hs := by
    rw [readMechanism, splitTerm_colon (by decide)]
    simp only [Text.lower, required_of_ne_nil hs, ok_bind]
    cases readNetwork Ipv6 .invalidIpv6 s <;> simp [Except.map, Kind.name]
  check_eq _ _ := rfl

namespace IsNetworkTerm

variable {α : Type} [AddressFamily α] {kind : Kind} {mechanism : String → Mechanism}
  {invalid : String → RecordError} {reason : Reason} {raw : String}

theorem ofText_eq (hterm : IsNetworkTerm α kind mechanism invalid reason)
    (h : Text.IsWord raw.toList) : ofText ("v=spf1 " ++ (kind.name ++ ":" ++ raw)) =
      (readNetwork α invalid raw.toList).map fun v => ⟨[⟨.pass, mechanism v⟩], none, none⟩ := by
  rw [ofText_colon hterm.name_ne_nil hterm.all_isAlphanum h.not_blank,
    hterm.readMechanism_eq raw.toList h.ne_nil]
  cases readNetwork α invalid raw.toList <;> rfl

/-- A record of one network term is accepted exactly if the value is valid. -/
theorem ofText_eq_ok_iff (hterm : IsNetworkTerm α kind mechanism invalid reason)
    (h : Text.IsWord raw.toList) (style : MacroStyle) (r : Record) :
    ofText ("v=spf1 " ++ (kind.name ++ ":" ++ raw)) = .ok r ↔
      ∃ v, validate style kind raw = .ok v ∧ r = ⟨[⟨.pass, mechanism v⟩], none, none⟩ := by
  rw [hterm.ofText_eq h, map_eq_ok_iff]
  apply exists_congr
  intro v
  rw [validate_eq_ok_iff, h.trim_eq, hterm.check_eq, eq_comm (b := r)]
  exact and_congr_left fun _ => readNetwork_eq_ok_iff

theorem ofText_eq_error_iff (hterm : IsNetworkTerm α kind mechanism invalid reason)
    (h : Text.IsWord raw.toList) (style : MacroStyle) (e : RecordError) :
    ofText ("v=spf1 " ++ (kind.name ++ ":" ++ raw)) = .error e ↔
      validate style kind raw = .error reason ∧
        (PrefixLength.IsMissing (AddressFamily.width α) raw.toList ∧ e = .invalidLength raw ∨
          ¬ PrefixLength.IsMissing (AddressFamily.width α) raw.toList ∧ e = invalid raw) := by
  rw [hterm.ofText_eq h, map_eq_error_iff, validate_eq_error_iff, h.trim_eq, hterm.check_eq,
    readNetwork_eq_error_iff reason, String.ofList_toList]

end IsNetworkTerm

end Record

/-- An `ip4` or `ip6` term with a word for its argument is a record exactly if the argument is
a valid value of that kind, and then the record holds the valid text. Where the value is
refused the record is too, for its prefix length if that is at fault and else for the address. -/
theorem network_terms_agree_with_validation {raw : String} (h : Text.IsWord raw.toList)
    (style : MacroStyle) :
    (∀ r, Record.ofText ("v=spf1 ip4:" ++ raw) = .ok r ↔
      ∃ v, validate style .ip4 raw = .ok v ∧ r = ⟨[⟨.pass, .ip4 v⟩], none, none⟩) ∧
    (∀ e, Record.ofText ("v=spf1 ip4:" ++ raw) = .error e ↔
      validate style .ip4 raw = .error .invalidIpv4 ∧
        (PrefixLength.IsMissing 32 raw.toList ∧ e = .invalidLength raw ∨
          ¬ PrefixLength.IsMissing 32 raw.toList ∧ e = .invalidIpv4 raw)) ∧
    (∀ r, Record.ofText ("v=spf1 ip6:" ++ raw) = .ok r ↔
      ∃ v, validate style .ip6 raw = .ok v ∧ r = ⟨[⟨.pass, .ip6 v⟩], none, none⟩) ∧
    (∀ e, Record.ofText ("v=spf1 ip6:" ++ raw) = .error e ↔
      validate style .ip6 raw = .error .invalidIpv6 ∧
        (PrefixLength.IsMissing 128 raw.toList ∧ e = .invalidLength raw ∨
          ¬ PrefixLength.IsMissing 128 raw.toList ∧ e = .invalidIpv6 raw)) := by
  have htext4 : "v=spf1 ip4:" ++ raw = "v=spf1 " ++ (Kind.ip4.name ++ ":" ++ raw) := by
    simp [String.ext_iff, Kind.name]
  have htext6 : "v=spf1 ip6:" ++ raw = "v=spf1 " ++ (Kind.ip6.name ++ ":" ++ raw) := by
    simp [String.ext_iff, Kind.name]
  rw [htext4, htext6]
  refine ⟨?_, ?_, ?_, ?_⟩
  · exact Record.isNetworkTerm_ip4.ofText_eq_ok_iff h style
  · exact Record.isNetworkTerm_ip4.ofText_eq_error_iff h style
  · exact Record.isNetworkTerm_ip6.ofText_eq_ok_iff h style
  · exact Record.isNetworkTerm_ip6.ofText_eq_error_iff h style

/-- A length that is too long for one of the families, an equals sign in front of a length with
a sign, and two lengths, of which the last one counts. -/
theorem network_terms_agree_with_validation_faults :
    Record.ofText "v=spf1 ip6:0::FFFF:192.0.2.1/096" =
        .ok ⟨[⟨.pass, .ip6 "::ffff:192.0.2.1/96"⟩], none, none⟩ ∧
      Record.ofText "v=spf1 ip4:0::FFFF:192.0.2.1/096" =
        .error (.invalidLength "0::FFFF:192.0.2.1/096") ∧
      Record.ofText "v=spf1 ip4:a=b/+8" = .error (.invalidLength "a=b/+8") ∧
      Record.ofText "v=spf1 ip4:192.0.2.0/24/24" = .error (.invalidIpv4 "192.0.2.0/24/24") := by
  have hmapped : Text.IsWord "0::FFFF:192.0.2.1/096".toList :=
    Text.isWord_of_all_graphic (by decide)
  have hsign : Text.IsWord "a=b/+8".toList := Text.isWord_of_all_graphic (by decide)
  have htwo : Text.IsWord "192.0.2.0/24/24".toList := Text.isWord_of_all_graphic (by decide)
  obtain ⟨-, hmapped4, hmapped6, -⟩ := network_terms_agree_with_validation hmapped .compact
  obtain ⟨-, hsign4, -, -⟩ := network_terms_agree_with_validation hsign .compact
  obtain ⟨-, htwo4, -, -⟩ := network_terms_agree_with_validation htwo .compact
  refine ⟨?_, ?_, ?_, ?_⟩
  · exact (hmapped6 _).mpr ⟨"::ffff:192.0.2.1/96", by decide +kernel, rfl⟩
  · exact (hmapped4 _).mpr ⟨by decide +kernel, .inl ⟨by decide +kernel, rfl⟩⟩
  · exact (hsign4 _).mpr ⟨by decide +kernel, .inl ⟨by decide +kernel, rfl⟩⟩
  · exact (htwo4 _).mpr ⟨by decide +kernel, .inr ⟨by decide +kernel, rfl⟩⟩

end SenderPolicy
