import SenderPolicy.Text.Cut
import SenderPolicy.Text.Letters

/-! Host names: the rule for a label, for a list of labels, and for a full name that
can be looked up. Lengths are counted in octets. -/
namespace SenderPolicy.HostName

-- The longest name in presentation form, without a final dot.
def maxOctets : Nat := 253

def maxLabelOctets : Nat := 63

def canonical (name : List Char) : List Char :=
  -- Lower case, without one final dot.
  Text.dropFinal '.' (Text.lower name)

def same (a b : List Char) : Bool :=
  canonical a == canonical b

def labelBody : List Char → List Char
  -- A label's text after the underscore that service labels start with.
  | '_' :: body => body
  | label => label

def isLabel (label : List Char) : Bool :=
  -- ASCII letters, digits and hyphens, with no hyphen at either end, after at most one leading
  -- underscore.
  let body := labelBody label
  Text.octets label ≤ maxLabelOctets && !body.isEmpty &&
    body.head? != some '-' && body.getLast? != some '-' &&
    body.all fun c => c.isAlphanum || c == '-'

def labels (name : List Char) : List (List Char) :=
  (Text.dropFinal '.' name).splitOn '.'

def isLabelList (name : List Char) : Bool :=
  Text.octets (Text.dropFinal '.' name) ≤ maxOctets && (labels name).all isLabel

/-- A full name has two labels or more, and its last label is neither a number, so
that no dotted quad is taken for a name, nor a service label. -/
def isFull (name : List Char) : Bool :=
  isLabelList name && 2 ≤ (labels name).length &&
    match (labels name).getLast? with
    | some top => top.head? != some '_' && !top.all Char.isDigit
    | none => false

end SenderPolicy.HostName
