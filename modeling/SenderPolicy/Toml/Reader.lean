import SenderPolicy.Toml.Scalar

/-! Reading TOML documents: keys, values with parts, and lines. -/
namespace SenderPolicy.Toml

open SenderPolicy.Text

-- How deep arrays and tables in braces may be nested.
def maxDepth : Nat := 79

def maxKeyParts : Nat := 79

def isBareKeyChar (c : Char) : Bool :=
  c.isAlphanum || c == '-' || c == '_'

def keyPart : Scanner String := do
  match ← Scanner.peek? with
  | some '"' => basicString
  | some '\'' => literalString
  | _ => return String.ofList (← Scanner.takeWhile1 isBareKeyChar)

def key : Scanner Key := do
  let part : Scanner String := do
    space
    let name ← keyPart
    space
    return name
  let parts ← Scanner.sepBy1 part (Scanner.char '.')
  if maxKeyParts < parts.length then failure
  match parts.getLast? with
  | some last => return ⟨parts.dropLast, last⟩
  | none => failure

def comment : Scanner Unit := do
  Scanner.char '#'
  let _ ← Scanner.takeWhile isTextChar

def spaceAndLines : Scanner Unit := do
  -- Spaces, line ends and comments, each of which needs its line end.
  let _ ← Scanner.many do
    space
    let _ ← Scanner.optional? comment
    newline
  space

def arrayOf (value : Scanner Node) : Scanner (List Node) := do
  -- Values in brackets over any number of lines. A comma may follow the last.
  Scanner.char '['
  spaceAndLines
  if ← Scanner.accept (Scanner.char ']') then return []
  let separator : Scanner Unit := do
    spaceAndLines
    Scanner.char ','
    spaceAndLines
    match ← Scanner.peek? with
    | some ']' => failure
    | _ => return ()
  let items ← Scanner.sepBy1 value separator
  spaceAndLines
  if ← Scanner.accept (Scanner.char ',') then spaceAndLines
  Scanner.char ']'
  return items

def pair (value : Scanner Node) : Scanner (Key × Node) := do
  let k ← key
  Scanner.char '='
  space
  return (k, ← value)

def inlineTableOf (value : Scanner Node) : Scanner Members := do
  -- Pairs in braces on one line.
  Scanner.char '\x7b'
  space
  if ← Scanner.accept (Scanner.char '\x7d') then return []
  let item : Scanner (Key × Node) := do
    let p ← pair value
    space
    return p
  let pairs ← Scanner.sepBy1 item (Scanner.char ',')
  Scanner.char '\x7d'
  match pairs.foldlM (fun ms (k, v) => Members.assign k.last v k.parents ms) [] with
  | some members => return members
  | none => failure

def value : Nat → Scanner Node
  | 0 => scalar
  | depth + 1 => do
    match ← Scanner.peek? with
    | some '[' => return .array (← arrayOf (value depth))
    | some '\x7b' => return .table .inline (← inlineTableOf (value depth))
    | _ => scalar

def header : Scanner Statement := do
  Scanner.char '['
  if ← Scanner.accept (Scanner.char '[') then
    let k ← key
    Scanner.text "]]"
    return .arrayHeader k
  else
    let k ← key
    Scanner.char ']'
    return .header k

def line : Scanner (Option Statement) := do
  space
  let statement? ← match ← Scanner.peek? with
    | none | some '#' | some '\r' | some '\n' => pure none
    | some '[' => some <$> header
    | _ => do
      let (k, v) ← pair (value maxDepth)
      pure (some (.assign k v))
  space
  let _ ← Scanner.optional? comment
  return statement?

def document : Scanner (List Statement) := do
  -- The statements of a document, which may start with a byte order mark.
  let _ ← Scanner.accept (Scanner.char '\ufeff')
  return (← Scanner.sepBy1 line newline).filterMap id

/-- The root table of a text, by TOML 1.0. A byte order mark in front is skipped, integers have 64
bits and a sign, no key or table is defined twice, and there is a bound on the depth of arrays,
tables in braces and keys with dots. -/
def ofText? (s : String) : Option Members := do
  Document.ofStatements? (← document.readAll s.toList)

end SenderPolicy.Toml
