import SenderPolicy.Numeral
import SenderPolicy.Text.Letters
import SenderPolicy.Text.Scanner
import SenderPolicy.Toml.Basic

/-! The values of TOML 1.0 without parts: strings, numbers, truth values, moments. -/
namespace SenderPolicy.Toml

open SenderPolicy.Text

def isSpace (c : Char) : Bool :=
  c == ' ' || c == '\t'

def space : Scanner Unit := do
  let _ ← Scanner.takeWhile isSpace

def newline : Scanner Unit := do
  let _ ← Scanner.accept (Scanner.char '\r')
  Scanner.char '\n'

def isTextChar (c : Char) : Bool :=
  -- Characters of comments: tab, and all that is no control character. Those of strings are among
  -- them.
  c == '\t' || (0x20 ≤ c.toNat && c.toNat ≠ 0x7F)

def isBasic (c : Char) : Bool :=
  isTextChar c && c != '"' && c != '\\'

def isLiteral (c : Char) : Bool :=
  isTextChar c && c != '\''

def numbered (digits : Nat) : Scanner Char := do
  -- A character by its number in hexadecimal, which may not name half of a pair.
  let hex ← Scanner.exactly digits fun c => (digitValue? 16 c).isSome
  let n := (natOfDigits? 16 hex).getD 0
  if n.isValidChar then return Char.ofNat n else failure

def escape : Scanner Char := do
  Scanner.char '\\'
  match ← Scanner.charWhere fun _ => true with
  | 'b' => return '\x08'
  | 'f' => return '\x0c'
  | 'n' => return '\n'
  | 'r' => return '\r'
  | 't' => return '\t'
  | '"' => return '"'
  | '\\' => return '\\'
  | 'u' => numbered 4
  | 'U' => numbered 8
  | _ => failure

def basicString : Scanner String := do
  Scanner.char '"'
  let cs ← Scanner.many (Scanner.charWhere isBasic <|> escape)
  Scanner.char '"'
  return String.ofList cs

def literalString : Scanner String := do
  Scanner.char '\''
  let cs ← Scanner.takeWhile isLiteral
  Scanner.char '\''
  return String.ofList cs

def continuation : Scanner (List Char) := do
  -- A backslash at the end of a line takes all white space up to the next character.
  Scanner.char '\\'
  space
  newline
  let _ ← Scanner.many ((do let _ ← Scanner.charWhere isSpace) <|> newline)
  return []

def innerQuotes (quote : Char) : Scanner (List Char) := do
  let run ← Scanner.takeWhile1 (· == quote)
  if run.length ≤ 2 then return run else failure

def closingQuotes (quote : Char) : Scanner (List Char) := do
  -- The three quotes at the end of a long string. Up to two more in front of them belong to its
  -- text.
  let run ← Scanner.takeWhile1 (· == quote)
  if 3 ≤ run.length ∧ run.length ≤ 5 then return run.drop 3 else failure

def longString (quote : Char) (content : Scanner (List Char)) : Scanner String := do
  -- A string over several lines. A line end directly after the opening is dropped, and every other
  -- one is written as a single character.
  let _ ← Scanner.exactly 3 (· == quote)
  let _ ← Scanner.accept newline
  let lineEnd : Scanner (List Char) := do
    newline
    return ['\n']
  let parts ← Scanner.many (content <|> lineEnd <|> innerQuotes quote)
  return String.ofList (parts.flatten ++ (← closingQuotes quote))

def longBasicString : Scanner String :=
  longString '"' (Scanner.takeWhile1 isBasic <|> continuation <|> (do return [← escape]))

def longLiteralString : Scanner String :=
  longString '\'' (Scanner.takeWhile1 isLiteral)

def quotedString : Scanner String :=
  longBasicString <|> longLiteralString <|> basicString <|> literalString

def digitRun (isDigit : Char → Bool) : Scanner (List Char) := do
  let first ← Scanner.charWhere isDigit
  let more ← Scanner.many do
    let _ ← Scanner.accept (Scanner.char '_')
    Scanner.charWhere isDigit
  return first :: more

def sign : Scanner Bool := do
  return (← Scanner.optional? (Scanner.charWhere fun c => c == '+' || c == '-')) = some '-'

def wholeDigits : Scanner (List Char) := do
  match ← Scanner.peek? with
  | some '0' => return [← Scanner.charWhere (· == '0')]
  | _ => digitRun Char.isDigit

def integerNode (n : Int) : Scanner Node :=
  -- Integers have 64 bits with a sign.
  if Int64.minValue.toInt ≤ n ∧ n ≤ Int64.maxValue.toInt then return .integer n else failure

def decimalInteger : Scanner Node := do
  let negative ← sign
  let n := Nat.ofDigitChars 10 (← wholeDigits) 0
  integerNode (if negative then -(n : Int) else n)

def basedInteger (mark : String) (base : Nat) : Scanner Node := do
  Scanner.text mark
  let digits ← digitRun fun c => (digitValue? base c).isSome
  integerNode ((natOfDigits? base digits).getD 0 : Nat)

def exponent : Scanner Int := do
  let _ ← Scanner.charWhere fun c => c == 'e' || c == 'E'
  let negative ← sign
  let n := Nat.ofDigitChars 10 (← digitRun Char.isDigit) 0
  return if negative then -(n : Int) else n

def floatNumber : Scanner Node := do
  -- A number with a point, an exponent or both. One that is too large above is refused; below it is
  -- taken for minus infinity.
  let negative ← sign
  let whole ← wholeDigits
  let places? ← Scanner.optional? do
    Scanner.char '.'
    digitRun Char.isDigit
  let exponent? ← Scanner.optional? exponent
  if places?.isNone && exponent?.isNone then failure
  let places := places?.getD []
  let n : Numeral := {
    negative := negative
    mantissa := Nat.ofDigitChars 10 (whole ++ places) 0
    scale := exponent?.getD 0 - (places.length : Int)
    integral := false }
  if n.overflows && !negative then failure else return .float

def specialFloat : Scanner Node := do
  let _ ← sign
  Scanner.text "inf" <|> Scanner.text "nan"
  return .float

def twoDigits (low high : Nat) : Scanner Nat := do
  let n := Nat.ofDigitChars 10 (← Scanner.exactly 2 Char.isDigit) 0
  if low ≤ n ∧ n ≤ high then return n else failure

def daysIn (year month : Nat) : Nat :=
  if month = 2 then
    if year % 4 = 0 ∧ (year % 100 ≠ 0 ∨ year % 400 = 0) then 29 else 28
  else if month = 4 ∨ month = 6 ∨ month = 9 ∨ month = 11 then 30
  else 31

def date : Scanner Unit := do
  let year := Nat.ofDigitChars 10 (← Scanner.exactly 4 Char.isDigit) 0
  Scanner.char '-'
  let month ← twoDigits 1 12
  Scanner.char '-'
  let _ ← twoDigits 1 (daysIn year month)

def timeOfDay : Scanner Unit := do
  -- Hours, minutes and seconds, a leap second included, with any number of places.
  let _ ← twoDigits 0 23
  Scanner.char ':'
  let _ ← twoDigits 0 59
  Scanner.char ':'
  let _ ← twoDigits 0 60
  if ← Scanner.accept (Scanner.char '.') then
    let _ ← Scanner.takeWhile1 Char.isDigit

def offset : Scanner Unit := do
  match ← Scanner.charWhere fun c => c == 'Z' || c == 'z' || c == '+' || c == '-' with
  | 'Z' | 'z' => return ()
  | _ =>
    let _ ← twoDigits 0 23
    Scanner.char ':'
    let _ ← twoDigits 0 59

def moment : Scanner Node := do
  let dated : Scanner Unit := do
    date
    let _ ← Scanner.optional? do
      let _ ← Scanner.charWhere fun c => c == 'T' || c == 't' || c == ' '
      timeOfDay
      let _ ← Scanner.optional? offset
  dated <|> timeOfDay
  return .moment

def number : Scanner Node :=
  moment <|> floatNumber <|> specialFloat <|> basedInteger "0x" 16 <|> basedInteger "0o" 8 <|>
    basedInteger "0b" 2 <|> decimalInteger

def scalar : Scanner Node := do
  match ← Scanner.peek? with
  | some '"' | some '\'' => return .string (← quotedString)
  | some 't' => Scanner.text "true"; return .boolean true
  | some 'f' => Scanner.text "false"; return .boolean false
  | _ => number

end SenderPolicy.Toml
