import SenderPolicy.Json.Basic
import SenderPolicy.Text.Letters
import SenderPolicy.Text.Scanner

/-! Reading JSON text by the grammar of RFC 8259. -/
namespace SenderPolicy.Json

open SenderPolicy.Text

inductive Unit16
  -- A piece of a string: a character, or half of a surrogate pair from an escape.
  | char (c : Char)
  | half (n : Nat)

def joinPairs : List Unit16 → Option (List Char)
  -- Joins the halves of pairs; a half left over has no character.
  | [] => some []
  | .char c :: rest => (c :: ·) <$> joinPairs rest
  | .half high :: .half low :: rest =>
    if high < 0xDC00 ∧ 0xDC00 ≤ low then
      (Char.ofNat (0x10000 + (high - 0xD800) * 0x400 + (low - 0xDC00)) :: ·) <$> joinPairs rest
    else none
  | .half _ :: _ => none

def isSpace (c : Char) : Bool :=
  c == ' ' || c == '\t' || c == '\n' || c == '\r'

def space : Scanner Unit := do
  let _ ← Scanner.takeWhile isSpace

def escape : Scanner Unit16 := do
  match ← Scanner.charWhere fun _ => true with
  | '"' => return .char '"'
  | '\\' => return .char '\\'
  | '/' => return .char '/'
  | 'b' => return .char '\x08'
  | 'f' => return .char '\x0c'
  | 'n' => return .char '\n'
  | 'r' => return .char '\r'
  | 't' => return .char '\t'
  | 'u' =>
    let digits ← Scanner.exactly 4 fun c => (digitValue? 16 c).isSome
    let n := (natOfDigits? 16 digits).getD 0
    return if 0xD800 ≤ n ∧ n < 0xE000 then .half n else .char (Char.ofNat n)
  | _ => failure

def unit : Scanner Unit16 := do
  -- A character of a string, control characters only as escapes.
  let c ← Scanner.charWhere fun c => c != '"' && 0x20 ≤ c.toNat
  if c == '\\' then escape else return .char c

def string? : Scanner (Option String) := do
  -- A string, or nothing if its escapes leave half a pair.
  Scanner.char '"'
  let units ← Scanner.many unit
  Scanner.char '"'
  return (joinPairs units).map String.ofList

def digits : Scanner (List Char) :=
  Scanner.takeWhile1 Char.isDigit

def wholeDigits : Scanner (List Char) := do
  let run ← digits
  if run.head? = some '0' ∧ run.length ≠ 1 then failure else return run

def fraction : Scanner (List Char) := do
  Scanner.char '.'
  digits

def exponent : Scanner Int := do
  let _ ← Scanner.charWhere fun c => c == 'e' || c == 'E'
  let sign ← Scanner.optional? (Scanner.charWhere fun c => c == '+' || c == '-')
  let size := Nat.ofDigitChars 10 (← digits) 0
  return if sign = some '-' then -(size : Int) else size

def numeral : Scanner Numeral := do
  let negative ← Scanner.accept (Scanner.char '-')
  let whole ← wholeDigits
  let fraction? ← Scanner.optional? fraction
  let exponent? ← Scanner.optional? exponent
  let places := fraction?.getD []
  return {
    negative := negative
    mantissa := Nat.ofDigitChars 10 (whole ++ places) 0
    scale := exponent?.getD 0 - (places.length : Int)
    integral := fraction?.isNone && exponent?.isNone }

def comma : Scanner Unit := do
  space
  Scanner.char ','
  space

def bracketed {α : Type} (opening closing : Char) (item : Scanner α) : Scanner (List α) := do
  Scanner.char opening
  space
  if ← Scanner.accept (Scanner.char closing) then return []
  let items ← Scanner.sepBy1 item comma
  space
  Scanner.char closing
  return items

def member (value : Scanner Json) : Scanner (Option String × Json) := do
  let key? ← string?
  space
  Scanner.char ':'
  space
  return (key?, ← value)

def ofMembers (members : List (Option String × Json)) : Json :=
  match members.mapM fun (key?, value) => key?.map (·, value) with
  | some members => .object members
  | none => .meaningless

def value : Nat → Scanner Json
  | 0 => failure
  | depth + 1 => do
    match ← Scanner.peek? with
    | some '[' => return .array (← bracketed '[' ']' (value depth))
    | some '\x7b' => return ofMembers (← bracketed '\x7b' '\x7d' (member (value depth)))
    | some '"' => return ((← string?).map Json.string).getD .meaningless
    | some 't' => Scanner.text "true"; return .bool true
    | some 'f' => Scanner.text "false"; return .bool false
    | some 'n' => Scanner.text "null"; return .null
    | _ =>
      let n ← numeral
      return if n.overflowsAsProduct then .meaningless else .number n

/-- The tree of a text, by the letter of the grammar: no comments, no commas at an end, no bare
control characters in strings, nothing but spaces behind the tree. A text that only fails to
denote something is still read here, as what nobody asks for may be such: half of a surrogate pair,
or a number whose leading digits times its power of ten is no finite double. No text nests deeper
than it is long. -/
def ofText? (s : String) : Option Json :=
  let document : Scanner Json := do
    space
    let v ← value (s.toList.length + 1)
    space
    return v
  document.readAll s.toList

end SenderPolicy.Json
