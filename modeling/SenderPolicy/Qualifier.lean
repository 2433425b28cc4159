import SenderPolicy.Text.Blank
import SenderPolicy.Text.Letters

/-! The qualifier in front of a directive, which is the result of its match. -/
namespace SenderPolicy

inductive Qualifier
  | pass
  | fail
  | softFail
  | neutral
  deriving DecidableEq, Repr

namespace Qualifier

/-- The terminal of a new record is a soft failure. -/
instance : Inhabited Qualifier := ⟨softFail⟩

def sign : Qualifier → Char
  | pass => '+'
  | fail => '-'
  | softFail => '~'
  | neutral => '?'

def ofSign? : Char → Option Qualifier
  | '+' => some pass
  | '-' => some fail
  | '~' => some softFail
  | '?' => some neutral
  | _ => none

theorem ofSign?_sign (q : Qualifier) : ofSign? q.sign = some q := by
  cases q <;> rfl

def takeSign : List Char → Qualifier × List Char
  -- Takes the sign off a directive. One without a sign means pass.
  | [] => (pass, [])
  | c :: cs =>
    match ofSign? c with
    | some q => (q, cs)
    | none => (pass, c :: cs)

def name : Qualifier → String
  | pass => "pass"
  | fail => "fail"
  | softFail => "softfail"
  | neutral => "neutral"

def all : List Qualifier := [pass, fail, softFail, neutral]

def ofName? (s : String) : Option Qualifier :=
  all.find? (·.name == s)

theorem ofName?_name (q : Qualifier) : ofName? q.name = some q := by
  cases q <;> decide

def ofText? (s : String) : Option Qualifier :=
  -- A choice by name, by sign, or by a whole terminal such as `~all`, in any case and with blanks
  -- around it.
  let text := Text.lower (Text.trim s.toList)
  let choice := if "all".toList.isSuffixOf text then text.take (text.length - 3) else text
  match choice with
  | [c] => ofSign? c
  | _ => if choice = "soft-fail".toList then some softFail else ofName? (String.ofList choice)

def unknownMessage (s : String) : String :=
  "unknown qualifier '" ++ s ++ "' (expected fail, softfail, neutral or pass)"

end Qualifier
end SenderPolicy
