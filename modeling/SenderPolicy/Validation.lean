import SenderPolicy.Address.Ipv6
import SenderPolicy.HostName
import SenderPolicy.MacroString
import SenderPolicy.Rejection
import SenderPolicy.Text.Blank

/-! Validation of one value: its normal form, or the reason why it has none. -/
namespace SenderPolicy

namespace Validation

def network (α : Type) [AddressFamily α] (reason : Reason) (s : List Char) :
    Except Reason (List Char) :=
  match (Network.ofChars? s : Option (Network α)) with
  | some n => .ok n.toChars
  | none => .error reason

def hostName (s : List Char) : Except Reason (List Char) :=
  if HostName.isFull s then .ok (HostName.canonical s) else .error .invalidDomain

/-- A name with macros in it. The literal text keeps its case, and only the spelling of
the macros is settled. With a macro anywhere the labels are checked, and nothing is asked of
their number or of the last one, not even where it is literal text. -/
def macroName (style : MacroStyle) (s : List Char) : Except Reason (List Char) :=
  match MacroString.pieces s with
  | .error _ => .error .invalidMacro
  | .ok pieces =>
    let outline := MacroString.outline pieces
    if (if MacroString.hasMacros pieces then HostName.isLabelList outline
        else HostName.isFull outline)
    then .ok (MacroString.render style pieces)
    else .error .invalidDomain

def check (style : MacroStyle) : Kind → List Char → Except Reason (List Char)
  | .inclusion, s | .a, s | .mx, s | .redirect, s => hostName s
  | .ip4, s => network Ipv4 .invalidIpv4 s
  | .ip6, s => network Ipv6 .invalidIpv6 s
  | .existence, s => macroName style s
  | .all, _ => .error .invalidDomain

end Validation

def validate (style : MacroStyle) (kind : Kind) (raw : String) : Except Reason String :=
  (Validation.check style kind (Text.trim raw.toList)).map String.ofList

end SenderPolicy
