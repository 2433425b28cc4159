import SenderPolicy.Proofs.PrefixLength
import SenderPolicy.Proofs.TopLabel

/-! What one value can be taken for. IPv4 networks, IPv6 networks and names with macros have no
text in common, and a full host name is one of the names with macros. -/
namespace SenderPolicy

namespace Network

variable {α : Type} [AddressFamily α]

/-- A network is written as an address, with a slash and digits behind it or without. -/
theorem exists_address_of_ofChars? {s : List Char} {n : Network α} (h : ofChars? s = some n) :
    ∃ address rest, s = address ++ rest ∧ AddressFamily.ofChars? address = some n.address ∧
      ∀ c ∈ rest, c.isDigit = true ∨ c = '/' := by
  simp only [ofChars?, Option.bind_eq_bind, Option.bind_eq_some_iff] at h
  obtain ⟨⟨address, length?⟩, hsplit, a, ha, hn⟩ := h
  obtain rfl := Option.some.inj hn
  cases length? with
  | none =>
    obtain ⟨rfl, -⟩ := PrefixLength.split?_eq_address_iff.mp hsplit
    exact ⟨address, [], (List.append_nil _).symm, ha, List.forall_mem_nil _⟩
  | some length =>
    obtain ⟨digits, rfl, hdigits⟩ := PrefixLength.split?_eq_network_iff.mp hsplit
    exact ⟨address, '/' :: digits, rfl, ha,
      List.forall_mem_cons.mpr ⟨.inr rfl, fun c hc => .inl (hdigits.digits c hc)⟩⟩

theorem mem_of_ofChars?_ip4 {s : List Char} {n : Network Ipv4} (h : ofChars? s = some n) :
    ∀ c ∈ s, c.isDigit = true ∨ c = '.' ∨ c = '/' := by
  obtain ⟨address, rest, rfl, haddress, hrest⟩ := exists_address_of_ofChars? h
  refine List.forall_mem_append.mpr ⟨fun c hc => ?_, fun c hc => ?_⟩
  · exact (Ipv4.mem_of_ofChars? haddress hc).imp_right .inl
  · exact (hrest c hc).imp_right .inr

theorem colon_mem_of_ofChars?_ip6 {s : List Char} {n : Network Ipv6} (h : ofChars? s = some n) :
    ':' ∈ s := by
  obtain ⟨address, rest, rfl, haddress, -⟩ := exists_address_of_ofChars? h
  exact List.mem_append_left _ (Ipv6.colon_mem_of_ofChars? haddress)

end Network

namespace MacroString

/-- Text without percent signs and closing braces is literal. -/
theorem pieces_of_plain {s : List Char} (h : ∀ c ∈ s, c ≠ '%' ∧ c ≠ '\x7d') :
    pieces s = .ok (flush s []) := by
  -- Each character is an item of its own.
  refine pieces_eq_gather_iff.mpr ⟨s.map .plain, ⟨?_, spelling_map_plain s⟩, ?_⟩
  · exact List.forall_mem_map.mpr h
  · have hgather := gather_append_plain [] s []
    rw [List.append_nil, List.nil_append] at hgather
    exact hgather.symm

theorem hasMacros_flush (s : List Char) : hasMacros (flush s []) = false := by
  rw [flush]
  split <;> rfl

theorem render_flush (style : MacroStyle) (s : List Char) : render style (flush s []) = s := by
  rw [flush]
  split
  next h => exact h.symm
  next => exact List.append_nil s

end MacroString

namespace HostName

/-- The top label of a full name is no number. -/
theorem exists_not_isDigit {name : List Char} (h : isFull name = true) :
    ∃ c ∈ name, c.isDigit = false ∧ c ≠ '.' := by
  obtain ⟨front, top, hname, htop, -, c, hc, hdigit⟩ := exists_top_of_isFull h
  refine ⟨c, Text.mem_of_mem_dropFinal (c := '.') ?_, hdigit, ?_⟩
  · rw [hname]
    exact List.mem_append_right _ (List.mem_cons_of_mem _ hc)
  · rintro rfl
    exact htop hc

end HostName

namespace Validation

variable {style : MacroStyle} {s v w : List Char}

/-- Without macros there is one style, and what is asked for is a full host name. -/
theorem macroName_of_plain (style : MacroStyle) (h : ∀ c ∈ s, c ≠ '%' ∧ c ≠ '\x7d') :
    macroName style s = if HostName.isFull s then .ok s else .error .invalidDomain := by
  rw [macroName_of_pieces style (MacroString.pieces_of_plain h), isTargetOutline,
    MacroString.hasMacros_flush, MacroString.render_flush, MacroString.outline_flush]
  simp [MacroString.outline]

/-- No IPv4 network has a colon. -/
theorem not_ip4_and_ip6 {reason reason' : Reason} (h : network Ipv4 reason s = .ok v)
    (h' : network Ipv6 reason' s = .ok w) : False := by
  obtain ⟨n, hn, -⟩ := network_eq_ok_iff.mp h
  obtain ⟨m, hm, -⟩ := network_eq_ok_iff.mp h'
  have hcolon := Network.mem_of_ofChars?_ip4 hn ':' (Network.colon_mem_of_ofChars?_ip6 hm)
  exact absurd hcolon (by decide)

/-- No name with macros is made of the characters of IPv4 networks alone. -/
theorem not_ip4_and_macroName {reason : Reason} (h : network Ipv4 reason s = .ok v)
    (h' : macroName style s = .ok w) : False := by
  obtain ⟨n, hn, -⟩ := network_eq_ok_iff.mp h
  have hchars := Network.mem_of_ofChars?_ip4 hn
  have hplain : ∀ c ∈ s, c ≠ '%' ∧ c ≠ '\x7d' := by
    intro c hc
    constructor <;> rintro rfl <;> exact absurd (hchars _ hc) (by decide)
  rw [macroName_of_plain style hplain] at h'
  split at h'
  next hfull =>
    -- Only a slash is neither a digit nor a point, and no label has one.
    obtain ⟨c, hc, hdigit, hdot⟩ := HostName.exists_not_isDigit hfull
    have hname := HostName.isNameChar_of_mem (HostName.isLabelList_of_isFull hfull) hc
    rcases hchars c hc with hc | hc | hc
    · rw [hdigit] at hc
      cases hc
    · exact hdot hc
    · exact hname.ne_slash hc
  next => cases h'

/-- No name with macros has a colon, and every IPv6 network has one. -/
theorem not_ip6_and_macroName {reason : Reason} (h : network Ipv6 reason s = .ok v)
    (h' : macroName style s = .ok w) : False := by
  obtain ⟨n, hn, -⟩ := network_eq_ok_iff.mp h
  -- Neither a label nor a macro has a colon.
  have hcolon := isMacroChar_of_accepted h' ':' (Network.colon_mem_of_ofChars?_ip6 hn)
  exact absurd hcolon (by simp [MacroString.IsMacroChar, HostName.IsNameChar,
    MacroString.isDelimiter])

/-- A host name is also a name without macros, kept in its spelling. -/
theorem macroName_of_hostName (style : MacroStyle) (h : hostName s = .ok v) :
    macroName style s = .ok s := by
  obtain ⟨hfull, -⟩ := hostName_eq_ok_iff.mp h
  have hplain : ∀ c ∈ s, c ≠ '%' ∧ c ≠ '\x7d' := by
    intro c hc
    have hname := HostName.isNameChar_of_mem (HostName.isLabelList_of_isFull hfull) hc
    constructor <;> rintro rfl <;> exact absurd hname (by simp [HostName.IsNameChar])
  rw [macroName_of_plain style hplain, if_pos hfull]

end Validation

def Kind.Accepts (kind : Kind) (style : MacroStyle) (raw : String) : Prop :=
  ∃ v, validate style kind raw = .ok v

theorem Kind.not_both_of_check (kind kind' : Kind) {style : MacroStyle}
    (h : ∀ s v w, Validation.check style kind s = .ok v →
      Validation.check style kind' s = .ok w → False) (raw : String) :
    ¬ (kind.Accepts style raw ∧ kind'.Accepts style raw) := by
  rintro ⟨⟨v, hv⟩, ⟨w, hw⟩⟩
  exact h _ _ _ (validate_eq_ok_iff.mp hv) (validate_eq_ok_iff.mp hw)

/-- A host name is written alike for each kind that asks for one, and is kept as it is where macros
may stand. -/
theorem Kind.TakesHostName.validate_eq {kind : Kind} (h : kind.TakesHostName) {style : MacroStyle}
    {raw v : String} (hv : validate style kind raw = .ok v) :
    (∀ kind', kind'.TakesHostName → validate style kind' raw = .ok v) ∧
      ∃ v', validate style .existence raw = .ok v' ∧ HostName.same v.toList v'.toList = true := by
  rw [validate_eq_ok_iff, Validation.check_hostName h] at hv
  constructor
  · intro kind' hkind'
    rw [validate_eq_ok_iff, Validation.check_hostName hkind', hv]
  · refine ⟨String.ofList (Text.trim raw.toList), ?_, ?_⟩
    · rw [validate_eq_ok_iff, String.toList_ofList]
      exact Validation.macroName_of_hostName style hv
    · obtain ⟨hfull, hcanonical⟩ := Validation.hostName_eq_ok_iff.mp hv
      rw [HostName.same, beq_iff_eq, String.toList_ofList, hcanonical,
        HostName.canonical_canonical hfull]

/-- No value is a network of both families, or a network and a name. The kinds that take a host
name take the same values and give them one normal form. Such a value is also one for `exists`,
which keeps its letters and its final dot, and so it is no network. -/
theorem values_are_of_one_sort (style : MacroStyle) (raw : String) :
    ([Kind.ip4, .ip6, .existence].Pairwise fun kind kind' =>
      ¬ (kind.Accepts style raw ∧ kind'.Accepts style raw)) ∧
    (∀ (kind : Kind) v, kind.TakesHostName → validate style kind raw = .ok v →
      (∀ kind', kind'.TakesHostName → validate style kind' raw = .ok v) ∧
      ∃ v', validate style .existence raw = .ok v' ∧
        HostName.same v.toList v'.toList = true) ∧
    ∀ kind : Kind, kind.TakesHostName ∨ kind = .existence → kind.Accepts style raw →
      ¬ Kind.ip4.Accepts style raw ∧ ¬ Kind.ip6.Accepts style raw := by
  have hip4_ip6 : ¬ (Kind.ip4.Accepts style raw ∧ Kind.ip6.Accepts style raw) :=
    Kind.not_both_of_check .ip4 .ip6 (fun _ _ _ => Validation.not_ip4_and_ip6) raw
  have hip4_name : ¬ (Kind.ip4.Accepts style raw ∧ Kind.existence.Accepts style raw) :=
    Kind.not_both_of_check .ip4 .existence (fun _ _ _ => Validation.not_ip4_and_macroName) raw
  have hip6_name : ¬ (Kind.ip6.Accepts style raw ∧ Kind.existence.Accepts style raw) :=
    Kind.not_both_of_check .ip6 .existence (fun _ _ _ => Validation.not_ip6_and_macroName) raw
  refine ⟨?_, fun kind v hkind => hkind.validate_eq, ?_⟩
  · simp only [List.pairwise_cons, List.forall_mem_cons, List.Pairwise.nil]
    exact ⟨⟨hip4_ip6, hip4_name, List.forall_mem_nil _⟩, ⟨hip6_name, List.forall_mem_nil _⟩,
      List.forall_mem_nil _, trivial⟩
  · intro kind hkind haccepted
    have hname : Kind.existence.Accepts style raw := by
      rcases hkind with hkind | rfl
      · obtain ⟨v, hv⟩ := haccepted
        obtain ⟨-, v', hv', -⟩ := hkind.validate_eq hv
        exact ⟨v', hv'⟩
      · exact haccepted
    exact ⟨fun h => hip4_name ⟨h, hname⟩, fun h => hip6_name ⟨h, hname⟩⟩

/-- A name that only one letter keeps from being an IPv4 address, and an IPv6 network that ends in
one. -/
theorem values_are_of_one_sort_dotted :
    let name := " 192.0.2.X1.\n"
    let literal := "::FFFF:192.0.2.1/96"
    validate .compact .mx name = .ok "192.0.2.x1" ∧
      validate .compact .redirect name = .ok "192.0.2.x1" ∧
      ¬ Kind.ip4.Accepts .compact name ∧
      validate .compact .ip6 literal = .ok "::ffff:192.0.2.1/96" ∧
      ¬ Kind.ip4.Accepts .compact literal ∧ ¬ Kind.existence.Accepts .compact literal := by
  intro name literal
  have hname : validate .compact .mx name = .ok "192.0.2.x1" := by decide +kernel
  have hliteral : validate .compact .ip6 literal = .ok "::ffff:192.0.2.1/96" := by decide +kernel
  have hmx : Kind.mx.TakesHostName := .inr (.inr (.inl rfl))
  have hredirect : Kind.redirect.TakesHostName := .inr (.inr (.inr rfl))
  obtain ⟨-, halike, hnetworks⟩ := values_are_of_one_sort .compact name
  obtain ⟨hpairwise, -, -⟩ := values_are_of_one_sort .compact literal
  rw [List.pairwise_cons, List.pairwise_cons] at hpairwise
  refine ⟨hname, (halike _ _ hmx hname).1 _ hredirect, (hnetworks _ (.inl hmx) ⟨_, hname⟩).1,
    hliteral, fun h => ?_, fun h => ?_⟩
  · exact hpairwise.1 .ip6 (by decide) ⟨h, _, hliteral⟩
  · exact hpairwise.2.1 .existence (by decide) ⟨⟨_, hliteral⟩, h⟩

end SenderPolicy
