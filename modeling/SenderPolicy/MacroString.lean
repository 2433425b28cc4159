import SenderPolicy.Text.Cut
import SenderPolicy.Text.Letters

/-! Macro strings (RFC 7208, section 7.1). Records are written and never evaluated, so a
macro is checked and written back, and nothing is expanded. -/
namespace SenderPolicy

inductive MacroStyle
  /-- As `%i`. A macro with transformers keeps its braces. -/
  | compact
  /-- As `%{i}`. -/
  | braced
  deriving DecidableEq, Repr

namespace MacroStyle

instance : Inhabited MacroStyle := ⟨compact⟩

def name : MacroStyle → String
  | compact => "compact"
  | braced => "braced"

def all : List MacroStyle := [compact, braced]

def ofName? (s : String) : Option MacroStyle :=
  all.find? (·.name == s)

theorem ofName?_name (style : MacroStyle) : ofName? style.name = some style := by
  cases style <;> decide

end MacroStyle

namespace MacroString

inductive Piece
  | literal (text : List Char)
  /-- A percent sign with the mark behind it, one of `%`, `_` and `-`. -/
  | escape (mark : Char)
  | expansion (letter : Char) (transformers : List Char)
  deriving DecidableEq, Repr

inductive Defect
  | trailingPercent
  | unclosed
  | strayBrace
  | emptyBody
  | unknownLetter (letter : Char)
  | explanationOnly (letter : Char)
  | invalidTransformer (text : List Char)
  deriving DecidableEq, Repr

def Defect.message : Defect → String
  | trailingPercent => "trailing % in macro string"
  | unclosed => "unclosed macro expression"
  | strayBrace => "unexpected '\x7d' outside a macro expression"
  | emptyBody => "empty macro expression"
  | unknownLetter letter => "unknown macro letter: " ++ letter.toString
  | explanationOnly letter => "macro %\x7b" ++ letter.toString ++ "\x7d only allowed in exp= context"
  | invalidTransformer text => "invalid macro transformer: " ++ String.ofList text

def isMark (c : Char) : Bool :=
  -- The marks that make an escape with a percent sign in front.
  c == '%' || c == '_' || c == '-'

def checkLetter (letter : Char) : Except Defect Unit :=
  -- The letters of a domain's macros. Those of an explanation are known and refused.
  let l := letter.toLower
  if "slodiphv".toList.contains l then .ok ()
  else if "crt".toList.contains l then .error (.explanationOnly letter)
  else .error (.unknownLetter letter)

def isDelimiter (c : Char) : Bool :=
  ".-+,/_=".toList.contains c

def afterReversal : List Char → List Char
  | c :: cs => if c = 'r' ∨ c = 'R' then cs else c :: cs
  | [] => []

def areTransformers (text : List Char) : Bool :=
  -- A number of labels that is not zero and fits 64 bits, or none; then at most one `r`; then
  -- delimiters.
  let digits := text.takeWhile Char.isDigit
  let n := Nat.ofDigitChars 10 digits 0
  (digits.isEmpty || (0 < n && n < UInt64.size)) &&
    (afterReversal (text.dropWhile Char.isDigit)).all isDelimiter

def ofBody : List Char → Except Defect Piece
  | [] => .error .emptyBody
  | letter :: transformers => do
    checkLetter letter
    if areTransformers transformers then .ok (.expansion letter transformers)
    else .error (.invalidTransformer transformers)

def flush (literal : List Char) (ps : List Piece) : List Piece :=
  -- The characters since the last macro are a literal, if there are any.
  if literal = [] then ps else .literal literal :: ps

def scan (literal : List Char) : List Char → Except Defect (List Piece)
  -- The pieces of a text, or its first defect, where `literal` was read since the last macro.
  | [] => .ok (flush literal [])
  | '%' :: [] => .error .trailingPercent
  | '%' :: '\x7b' :: rest =>
    match h : Text.cutFirst '\x7d' rest with
    | none => .error .unclosed
    | some (body, rest') => do
      let piece ← ofBody body
      have : rest'.length < rest.length := Text.length_lt_of_cutFirst h
      return flush literal (piece :: (← scan [] rest'))
  | '%' :: c :: rest => do
    if isMark c then return flush literal (.escape c :: (← scan [] rest))
    checkLetter c
    return flush literal (.expansion c [] :: (← scan [] rest))
  | c :: rest =>
    if c = '\x7d' then .error .strayBrace
    else scan (literal ++ [c]) rest
termination_by s => s.length
decreasing_by
  all_goals
    simp only [List.length_cons]
    omega

def pieces (s : List Char) : Except Defect (List Piece) :=
  scan [] s

def Piece.render (style : MacroStyle) : Piece → List Char
  | literal text => text
  | escape mark => ['%', mark]
  | expansion letter transformers =>
    if style = .compact ∧ transformers = [] then ['%', letter]
    else ['%', '\x7b', letter] ++ transformers ++ ['\x7d']

def render (style : MacroStyle) (ps : List Piece) : List Char :=
  ps.flatMap (Piece.render style)

/-- The literal text with a one-letter label for everything else, so that the rules for
host names apply to what surrounds the macros. -/
def outline (ps : List Piece) : List Char :=
  ps.flatMap fun
    | .literal text => text
    | _ => ['x']

def Piece.isLiteral : Piece → Bool
  | literal _ => true
  | _ => false

def hasMacros (ps : List Piece) : Bool :=
  ps.any (!·.isLiteral)

end MacroString
end SenderPolicy
