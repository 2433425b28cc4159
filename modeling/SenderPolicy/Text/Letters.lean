/-! Letter case and digits. Case is changed and compared for ASCII letters only,
which is what host names and record keywords ask for. -/
namespace SenderPolicy.Text

def lower (s : List Char) : List Char :=
  -- Lower case for the ASCII letters; every other character is kept.
  s.map Char.toLower

def sameLetters (a b : List Char) : Bool :=
  lower a == lower b

def octets : List Char → Nat
  -- The length of the text in UTF-8.
  | [] => 0
  | c :: cs => c.utf8Size + octets cs

def digitValue? (base : Nat) (c : Char) : Option Nat :=
  -- The value of a digit below `base`; letters of either case continue after nine.
  let value? :=
    if c.isDigit then some (c.toNat - '0'.toNat)
    else if c.isLower then some (c.toNat - 'a'.toNat + 10)
    else if c.isUpper then some (c.toNat - 'A'.toNat + 10)
    else none
  value?.filter (· < base)

def natOfDigits? (base : Nat) (s : List Char) : Option Nat :=
  s.foldlM (fun n c => (digitValue? base c).map (base * n + ·)) 0

def afterPlus : List Char → List Char
  | '+' :: s => s
  | s => s

def byte? (s : List Char) : Option UInt8 :=
  -- A number below 256 in decimal. A plus sign may stand in front, and any number of zeros.
  let digits := afterPlus s
  let n := Nat.ofDigitChars 10 digits 0
  if digits ≠ [] ∧ digits.all Char.isDigit ∧ n < 256 then some (UInt8.ofNat n) else none

def decimal (n : Nat) : List Char :=
  Nat.toDigits 10 n

theorem lower_append (a b : List Char) : lower (a ++ b) = lower a ++ lower b :=
  List.map_append

theorem octets_cons (c : Char) (s : List Char) : octets (c :: s) = c.utf8Size + octets s :=
  rfl

theorem octets_append (a b : List Char) : octets (a ++ b) = octets a + octets b := by
  induction a with
  | nil => simp [octets]
  | cons c a ih => rw [List.cons_append, octets_cons, octets_cons, ih, Nat.add_assoc]

end SenderPolicy.Text
