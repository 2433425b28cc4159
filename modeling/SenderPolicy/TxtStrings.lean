import SenderPolicy.Text.Letters

/-! Cutting a record into the character strings of a TXT record. -/
namespace SenderPolicy.TxtStrings

-- The longest character string (RFC 1035, section 3.3), in octets.
def maxOctets : Nat := 255

def fill (room : Nat) : List Char → List Char × List Char
  | [] => ([], [])
  | c :: cs =>
    if c.utf8Size ≤ room then
      let (front, rest) := fill (room - c.utf8Size) cs
      (c :: front, rest)
    else ([], c :: cs)

/-- The first string and the rest are the text again. -/
theorem fill_append (room : Nat) (s : List Char) : (fill room s).1 ++ (fill room s).2 = s := by
  induction s generalizing room with
  | nil => rfl
  | cons c cs ih =>
    rw [fill]
    split
    · simp [ih]
    · rfl

/-- A string takes a character at least if there is room for the first one, so cutting ends. -/
theorem length_fill_lt {room : Nat} {c : Char} (h : c.utf8Size ≤ room) (cs : List Char) :
    (fill room (c :: cs)).2.length < (c :: cs).length := by
  have happ := congrArg List.length (fill_append (room - c.utf8Size) cs)
  simp only [fill, if_pos h, List.length_cons]
  simp only [List.length_append] at happ
  omega

def pieces : List Char → List (List Char)
  -- Cuts as late as possible. A character takes four octets at most, so every string takes one.
  | [] => []
  | c :: cs => (fill maxOctets (c :: cs)).1 :: pieces (fill maxOctets (c :: cs)).2
termination_by s => s.length
decreasing_by exact length_fill_lt (Nat.le_trans c.utf8Size_le_four (by decide)) cs

theorem flatten_pieces (s : List Char) : (pieces s).flatten = s := by
  induction s using pieces.induct with
  | case1 => rw [pieces, List.flatten_nil]
  | case2 c cs ih => rw [pieces, List.flatten_cons, ih, fill_append]

def ofRecord (record : String) : List String :=
  -- The strings of a record. An empty record still has one.
  if record.isEmpty then [""] else (pieces record.toList).map String.ofList

/-- The strings of a record, one behind the other, are the record. -/
theorem join_ofRecord (record : String) : String.join (ofRecord record) = record := by
  apply String.toList_inj.mp
  rw [String.toList_join, ofRecord]
  split
  next hempty => simp [String.isEmpty_iff.mp hempty]
  next => simp [List.flatMap_map, List.flatMap_id', flatten_pieces]

end SenderPolicy.TxtStrings
