/-! Readers that take a value off the front of a text. They are partial functions on
the characters that are left, so a failed choice gives everything back. -/
namespace SenderPolicy.Text

abbrev Scanner := StateT (List Char) Option

namespace Scanner

variable {α β : Type}

def readAll (p : Scanner α) (s : List Char) : Option α :=
  match p.run s with
  | some (a, []) => some a
  | _ => none

def peek? : Scanner (Option Char) :=
  return (← get).head?

def charWhere (p : Char → Bool) : Scanner Char := do
  match ← get with
  | c :: cs => if p c then set cs; return c else failure
  | [] => failure

def char (c : Char) : Scanner Unit := do
  let _ ← charWhere (· == c)

def text (s : String) : Scanner Unit :=
  s.toList.forM char

def takeWhile (p : Char → Bool) : Scanner (List Char) := do
  let (run, rest) := (← get).span p
  set rest
  return run

def takeWhile1 (p : Char → Bool) : Scanner (List Char) := do
  let run ← takeWhile p
  if run.isEmpty then failure else return run

def exactly (n : Nat) (p : Char → Bool) : Scanner (List Char) :=
  (List.replicate n p).mapM charWhere

def optional? (p : Scanner α) : Scanner (Option α) :=
  (some <$> p) <|> pure none

def accept (p : Scanner α) : Scanner Bool :=
  -- True if `p` could be read, and then it is taken.
  return (← optional? p).isSome

def manyUpTo (p : Scanner α) : Nat → Scanner (List α)
  | 0 => return []
  | n + 1 => do
    match ← optional? p with
    | some a => return a :: (← manyUpTo p n)
    | none => return []

def many (p : Scanner α) : Scanner (List α) := do
  -- Items as long as there are any. Each takes a character, so the length of the text bounds their
  -- number.
  manyUpTo p (← get).length

def sepBy1 (p : Scanner α) (sep : Scanner β) : Scanner (List α) := do
  -- One item or more with a separator between each two, which promises an item.
  let first ← p
  let more ← whileSep (← get).length
  return first :: more
where
  whileSep : Nat → Scanner (List α)
    | 0 => return []
    | n + 1 => do
      if ← accept sep then
        let a ← p
        return a :: (← whileSep n)
      else return []

end Scanner
end SenderPolicy.Text
