import Mathlib.Data.List.Chain
import SenderPolicy.Proofs.Text.Ascii
import SenderPolicy.TxtStrings

/-! How full the strings of a record are. A string ends where the next character does not
fit any more, so in a text of single octets every string but the last is as long as it may be,
and no other way of cutting a record gives fewer strings. -/
namespace SenderPolicy

namespace Text

theorem utf8ByteSize_ofList (s : List Char) : (String.ofList s).utf8ByteSize = octets s := by
  induction s with
  | nil => rfl
  | cons c s ih =>
    rw [String.ofList_cons, String.utf8ByteSize_append, String.utf8ByteSize_singleton, ih,
      octets_cons]

theorem octets_toList (s : String) : octets s.toList = s.utf8ByteSize := by
  rw [← utf8ByteSize_ofList, String.ofList_toList]

end Text

namespace TxtStrings

theorem octets_fill_le (room : Nat) (s : List Char) : Text.octets (fill room s).1 ≤ room := by
  induction s generalizing room with
  | nil => exact Nat.zero_le room
  | cons c cs ih =>
    rw [fill]
    split
    next hfits =>
      have hrest := ih (room - c.utf8Size)
      rw [Text.octets_cons]
      omega
    next => exact Nat.zero_le room

/-- The first character that is left does not fit behind the others. -/
theorem lt_octets_fill {room : Nat} {s : List Char} {c : Char} (h : c ∈ (fill room s).2.head?) :
    room < Text.octets (fill room s).1 + c.utf8Size := by
  induction s generalizing room with
  | nil => cases h
  | cons d ds ih =>
    rw [fill] at h ⊢
    split at h
    next hfits =>
      have hrest := ih h
      rw [if_pos hfits, Text.octets_cons]
      omega
    next hfull =>
      obtain rfl : d = c := Option.some.inj h
      rw [if_neg hfull]
      simpa [Text.octets] using hfull

/-- Where each character takes one octet, nothing is left unless the string is full. -/
theorem octets_fill_eq {room : Nat} {s : List Char} (hs : ∀ c ∈ s, c.utf8Size = 1)
    (h : (fill room s).2 ≠ []) : Text.octets (fill room s).1 = room := by
  obtain ⟨c, rest, hrest⟩ := List.exists_cons_of_ne_nil h
  have hmem : c ∈ s := by
    rw [← fill_append room s, hrest]
    simp
  have hhead : c ∈ (fill room s).2.head? := by
    rw [hrest]
    rfl
  have hnext := lt_octets_fill hhead
  have hle := octets_fill_le room s
  rw [hs c hmem] at hnext
  omega

theorem mem_of_mem_fill {room : Nat} {s : List Char} {c : Char} (h : c ∈ (fill room s).2) :
    c ∈ s := by
  rw [← fill_append room s]
  exact List.mem_append_right _ h

theorem pieces_eq_nil_iff {s : List Char} : pieces s = [] ↔ s = [] := by
  cases s with
  | nil => simp [pieces]
  | cons c cs => simp [pieces]

/-- Every string but the last is full. -/
theorem octets_of_mem_dropLast {s piece : List Char} (hs : ∀ c ∈ s, c.utf8Size = 1)
    (h : piece ∈ (pieces s).dropLast) : Text.octets piece = maxOctets := by
  induction s using pieces.induct with
  | case1 => simp [pieces] at h
  | case2 c cs ih =>
    rw [pieces] at h
    by_cases hrest : (fill maxOctets (c :: cs)).2 = []
    · simp [hrest, pieces] at h
    · rw [List.dropLast_cons_of_ne_nil (mt pieces_eq_nil_iff.mp hrest)] at h
      rcases List.mem_cons.mp h with rfl | h
      · exact octets_fill_eq hs hrest
      · exact ih (fun d hd => hs d (mem_of_mem_fill hd)) h

/-- No fewer strings could hold the text. -/
theorem length_pieces {s : List Char} (hs : ∀ c ∈ s, c.utf8Size = 1) :
    (pieces s).length = (Text.octets s + (maxOctets - 1)) / maxOctets := by
  induction s using pieces.induct with
  | case1 => rw [pieces]; decide
  | case2 c cs ih =>
    have hsum : Text.octets (fill maxOctets (c :: cs)).1 +
        Text.octets (fill maxOctets (c :: cs)).2 = Text.octets (c :: cs) := by
      rw [← Text.octets_append, fill_append]
    have hmax : maxOctets = 255 := rfl
    rw [pieces, List.length_cons]
    by_cases hrest : (fill maxOctets (c :: cs)).2 = []
    · -- The first string is the last one, and it is not empty.
      have hle := octets_fill_le maxOctets (c :: cs)
      have hone := hs c List.mem_cons_self
      rw [hrest, Text.octets, Nat.add_zero] at hsum
      rw [hsum] at hle
      rw [Text.octets_cons, hone] at hle ⊢
      rw [hrest, pieces, List.length_nil]
      exact (Nat.div_eq_of_lt_le (by omega) (by omega)).symm
    · -- The first string is full, so the others hold exactly that much less.
      have hfull := octets_fill_eq hs hrest
      calc (pieces (fill maxOctets (c :: cs)).2).length + 1
          = (Text.octets (fill maxOctets (c :: cs)).2 + (maxOctets - 1)) / maxOctets + 1 := by
            rw [ih fun d hd => hs d (mem_of_mem_fill hd)]
        _ = (Text.octets (fill maxOctets (c :: cs)).2 + (maxOctets - 1) + maxOctets) / maxOctets :=
            (Nat.add_div_right _ (by decide)).symm
        _ = (Text.octets (c :: cs) + (maxOctets - 1)) / maxOctets := by
            rw [← hsum, hfull]
            congr 1
            omega

theorem ofRecord_of_ne_empty {record : String} (h : record ≠ "") :
    ofRecord record = (pieces record.toList).map String.ofList :=
  if_neg fun hempty => h (String.isEmpty_iff.mp hempty)

/-- If each character is one octet, all strings but the last are full. -/
theorem utf8ByteSize_of_mem_dropLast {record piece : String}
    (hrecord : ∀ c ∈ record.toList, c.utf8Size = 1) (h : piece ∈ (ofRecord record).dropLast) :
    piece.utf8ByteSize = maxOctets := by
  rw [ofRecord] at h
  split at h
  next => simp at h
  next =>
    rw [← List.map_dropLast] at h
    obtain ⟨s, hs, rfl⟩ := List.mem_map.mp h
    rw [Text.utf8ByteSize_ofList, octets_of_mem_dropLast hrecord hs]

/-- If each character is one octet, the strings are as many as the length over 255, rounded up. -/
theorem length_ofRecord {record : String} (hrecord : ∀ c ∈ record.toList, c.utf8Size = 1)
    (hne : record ≠ "") : (ofRecord record).length =
      (record.utf8ByteSize + (maxOctets - 1)) / maxOctets := by
  rw [ofRecord_of_ne_empty hne, List.length_map, length_pieces hrecord, Text.octets_toList]

/-! Cutting as late as possible -/

theorem octets_le_of_mem_pieces {s piece : List Char} (h : piece ∈ pieces s) :
    Text.octets piece ≤ maxOctets := by
  induction s using pieces.induct with
  | case1 => simp [pieces] at h
  | case2 c cs ih =>
    rw [pieces] at h
    rcases List.mem_cons.mp h with rfl | h
    · exact octets_fill_le maxOctets (c :: cs)
    · exact ih h

/-- A string takes its first character, which always fits. -/
theorem head?_fill (c : Char) (cs : List Char) : (fill maxOctets (c :: cs)).1.head? = some c := by
  have hfits : c.utf8Size ≤ maxOctets := c.utf8Size_le_four.trans (by decide)
  rw [fill, if_pos hfits]
  rfl

theorem nil_not_mem_pieces (s : List Char) : [] ∉ pieces s := by
  induction s using pieces.induct with
  | case1 => simp [pieces]
  | case2 c cs ih =>
    intro h
    rw [pieces] at h
    rcases List.mem_cons.mp h with hnil | h
    · have hhead := head?_fill c cs
      rw [← hnil] at hhead
      cases hhead
    · exact ih h

/-- A piece ends where the first character of the next one would be too much. -/
theorem isChain_pieces (s : List Char) :
    (pieces s).IsChain fun piece next =>
      ∃ c ∈ next.head?, maxOctets < Text.octets piece + c.utf8Size := by
  induction s using pieces.induct with
  | case1 =>
    rw [pieces]
    exact .nil
  | case2 c cs ih =>
    rw [pieces]
    cases hrest : (fill maxOctets (c :: cs)).2 with
    | nil =>
      rw [pieces]
      exact .singleton _
    | cons d ds =>
      rw [hrest, pieces] at ih
      rw [pieces]
      -- The next string starts with the character that was left.
      have hleft : d ∈ (fill maxOctets (c :: cs)).2.head? := by
        rw [hrest]
        rfl
      exact .cons_cons ⟨d, head?_fill d ds, lt_octets_fill hleft⟩ ih

/-- What fits and stands at the front of the text is a part of the first string. -/
theorem prefix_fill {room : Nat} {s front : List Char} (h : front <+: s)
    (hfits : Text.octets front ≤ room) : front <+: (fill room s).1 := by
  induction s generalizing room front with
  | nil => exact h
  | cons c cs ih =>
    cases front with
    | nil => exact List.nil_prefix
    | cons d front =>
      obtain ⟨rfl, hfront⟩ := List.cons_prefix_cons.mp h
      rw [Text.octets_cons] at hfits
      rw [fill, if_pos (by omega)]
      exact List.cons_prefix_cons.mpr ⟨rfl, ih hfront (by omega)⟩

/-- What is left behind the first string is a part of what is left behind any other one. -/
theorem fill_suffix {front rest : List Char} (hfits : Text.octets front ≤ maxOctets) :
    (fill maxOctets (front ++ rest)).2 <:+ rest := by
  obtain ⟨more, hmore⟩ := prefix_fill (List.prefix_append front rest) hfits
  have happend := fill_append maxOctets (front ++ rest)
  rw [← hmore, List.append_assoc] at happend
  exact ⟨more, List.append_cancel_left happend⟩

/-- Strings for a whole text are enough for each of its ends. -/
theorem length_pieces_le {parts : List (List Char)} {s : List Char} (h : s <:+ parts.flatten)
    (hparts : ∀ part ∈ parts, Text.octets part ≤ maxOctets) :
    (pieces s).length ≤ parts.length := by
  induction parts generalizing s with
  | nil =>
    obtain rfl := List.suffix_nil.mp h
    rw [pieces]
  | cons part parts ih =>
    obtain ⟨hpart, hrest⟩ := List.forall_mem_cons.mp hparts
    rw [List.length_cons]
    -- The end starts behind the first part, or inside of it with what is left of the part.
    rcases List.suffix_or_suffix_of_suffix h (List.suffix_append part parts.flatten) with
      hbehind | ⟨front, rfl⟩
    · exact (ih hbehind hrest).trans (Nat.le_succ _)
    · obtain ⟨skipped, hskipped⟩ := h
      rw [List.flatten_cons, ← List.append_assoc] at hskipped
      -- What is left of a part fits, so the first piece takes all of it and perhaps more.
      have hfront : Text.octets front ≤ maxOctets := by
        rw [← List.append_cancel_right hskipped, Text.octets_append] at hpart
        omega
      have hsuffix : (fill maxOctets (front ++ parts.flatten)).2 <:+ parts.flatten :=
        fill_suffix hfront
      cases hs : front ++ parts.flatten with
      | nil =>
        rw [pieces]
        exact Nat.zero_le _
      | cons c cs =>
        rw [hs] at hsuffix
        rw [pieces, List.length_cons]
        exact Nat.succ_le_succ (ih hsuffix hrest)

structure IsCutting (record : String) (strings : List String) : Prop where
  -- A way of cutting a record into strings that fit. However few the cuts, one string is left.
  ne_nil : strings ≠ []
  join_eq : String.join strings = record
  utf8ByteSize_le : ∀ string ∈ strings, string.utf8ByteSize ≤ maxOctets

/-- The strings of a record are a cutting of it. -/
theorem isCutting_ofRecord (record : String) : IsCutting record (ofRecord record) where
  ne_nil := by
    by_cases hempty : record = ""
    · subst hempty
      exact List.cons_ne_nil _ _
    · rw [ofRecord_of_ne_empty hempty, ne_eq, List.map_eq_nil_iff, pieces_eq_nil_iff,
        String.toList_eq_nil_iff]
      exact hempty
  join_eq := join_ofRecord record
  utf8ByteSize_le := by
    intro string h
    rw [ofRecord] at h
    split at h
    next =>
      obtain rfl := List.mem_singleton.mp h
      exact Nat.zero_le _
    next =>
      obtain ⟨piece, hpiece, rfl⟩ := List.mem_map.mp h
      rw [Text.utf8ByteSize_ofList]
      exact octets_le_of_mem_pieces hpiece

/-- No cutting has fewer strings. -/
theorem length_ofRecord_le {record : String} {strings : List String}
    (h : IsCutting record strings) : (ofRecord record).length ≤ strings.length := by
  by_cases hempty : record = ""
  · subst hempty
    exact List.length_pos_iff.mpr h.ne_nil
  · have hflatten : (strings.map String.toList).flatten = record.toList := by
      rw [← h.join_eq, String.toList_join, List.flatMap_def]
    have hparts : ∀ part ∈ strings.map String.toList, Text.octets part ≤ maxOctets := by
      intro part hpart
      obtain ⟨string, hstring, rfl⟩ := List.mem_map.mp hpart
      rw [Text.octets_toList]
      exact h.utf8ByteSize_le string hstring
    -- The text ends with itself, so the comparison of remainders starts with all of it.
    have hlen := length_pieces_le List.suffix_rfl hparts
    rwa [hflatten, List.length_map, ← List.length_map String.ofList,
      ← ofRecord_of_ne_empty hempty] at hlen

/-- The strings of a record hold its characters in their order, each in one string of at most
255 octets. None is empty but that of an empty record, each but the last has no room for the
next character, and no other cutting has fewer strings. -/
theorem txt_strings_are_fewest (record : String) :
    IsCutting record (ofRecord record) ∧
    (record = "" → ofRecord record = [""]) ∧ (record ≠ "" → "" ∉ ofRecord record) ∧
    ((ofRecord record).IsChain fun string next =>
      ∃ c ∈ next.toList.head?, maxOctets < string.utf8ByteSize + c.utf8Size) ∧
    ∀ strings, IsCutting record strings → (ofRecord record).length ≤ strings.length := by
  refine ⟨isCutting_ofRecord record, ?_, ?_, ?_, fun _ => length_ofRecord_le⟩
  · rintro rfl
    rfl
  · intro hne hmem
    rw [ofRecord_of_ne_empty hne] at hmem
    obtain ⟨piece, hpiece, hnil⟩ := List.mem_map.mp hmem
    obtain rfl : piece = [] := by simpa using hnil
    exact nil_not_mem_pieces _ hpiece
  · by_cases hempty : record = ""
    · subst hempty
      exact .singleton _
    · rw [ofRecord_of_ne_empty hempty, List.isChain_map]
      simpa only [String.toList_ofList, Text.utf8ByteSize_ofList] using
        isChain_pieces record.toList

end TxtStrings
end SenderPolicy
