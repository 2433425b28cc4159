import SenderPolicy.Json.Basic
import SenderPolicy.Text.Letters

/-! Compact JSON text. -/
namespace SenderPolicy.Json

def charText (c : Char) : List Char :=
  if c == '"' then ['\\', '"']
  else if c == '\\' then ['\\', '\\']
  else if c.toNat < 0x20 then
    ['\\', 'u', '0', '0', Nat.digitChar (c.toNat / 16), Nat.digitChar (c.toNat % 16)]
  else [c]

def stringText (s : String) : List Char :=
  '"' :: s.toList.flatMap charText ++ ['"']

def numeralText (n : Numeral) : List Char :=
  let digits := (if n.negative then ['-'] else []) ++ Text.decimal n.mantissa
  if n.integral then digits else digits ++ 'e' :: (toString n.scale).toList

mutual

def chars : Json → List Char
  | .null | .meaningless => "null".toList
  | .bool b => (if b then "true" else "false").toList
  | .number n => numeralText n
  | .string s => stringText s
  | .array items => '[' :: itemsText items ++ [']']
  | .object members => '\x7b' :: membersText members ++ ['\x7d']

def itemsText : List Json → List Char
  | [] => []
  | [item] => chars item
  | item :: items => chars item ++ ',' :: itemsText items

def membersText : List (String × Json) → List Char
  | [] => []
  | [(key, value)] => stringText key ++ ':' :: chars value
  | (key, value) :: members => stringText key ++ ':' :: chars value ++ ',' :: membersText members

end

def text (j : Json) : String :=
  String.ofList j.chars

end SenderPolicy.Json
