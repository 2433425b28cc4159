/-! TOML documents as trees, and how statements build them. A table remembers how it
came to be, because that decides what may still be added to it. -/
namespace SenderPolicy.Toml

inductive Origin
  /-- By a header of its own. -/
  | header
  /-- As a parent in the header of another table. -/
  | parent
  /-- As a parent in a dotted key. -/
  | dotted
  /-- By a value in braces, to which nothing is added. -/
  | inline
  deriving DecidableEq, Repr

inductive Node
  -- A value or a table. Floating numbers and moments in time are only told apart from the rest:
  -- nothing is ever asked of their value.
  | string (s : String)
  | integer (n : Int)
  | boolean (b : Bool)
  | float
  | moment
  | array (items : List Node)
  | table (origin : Origin) (members : List (String × Node))
  /-- An array of tables: those that are finished, and the one that is still open. -/
  | tables (finished : List (List (String × Node))) (open_ : List (String × Node))

abbrev Members := List (String × Node)

namespace Members

def get? (ms : Members) (key : String) : Option Node :=
  (ms.find? (·.1 == key)).map (·.2)

def add (ms : Members) (key : String) (n : Node) : Members :=
  ms ++ [(key, n)]

def replace (ms : Members) (key : String) (n : Node) : Members :=
  ms.map fun m => if m.1 == key then (key, n) else m

def assign (key : String) (value : Node) : List String → Members → Option Members
  -- Puts a value under a dotted key. The parents of the key are made as needed. One that is there
  -- may be gone through if no header defined it, or if it is an array of tables, and the direct
  -- parent has to be a table that dotted keys made.
  | [], ms => if (ms.get? key).isSome then none else some (ms.add key value)
  | parent :: parents, ms =>
    match ms.get? parent with
    | none => (assign key value parents []).map fun inner => ms.add parent (.table .dotted inner)
    | some (.table origin inner) =>
      if origin = .dotted ∨ (origin = .parent ∧ parents ≠ []) then
        (assign key value parents inner).map fun inner => ms.replace parent (.table origin inner)
      else none
    | some (.tables finished inner) =>
      if parents ≠ [] then
        (assign key value parents inner).map fun inner => ms.replace parent (.tables finished inner)
      else none
    | some _ => none

def modify (f : Members → Option Members) : List String → Members → Option Members
  -- Changes the table that a path leads to. Missing tables are made, of an array of tables the open
  -- one is meant, and tables in braces are closed.
  | [], ms => f ms
  | key :: path, ms =>
    match ms.get? key with
    | none => (modify f path []).map fun inner => ms.add key (.table .parent inner)
    | some (.table origin inner) =>
      if origin = .inline then none
      else (modify f path inner).map fun inner => ms.replace key (.table origin inner)
    | some (.tables finished inner) =>
      (modify f path inner).map fun inner => ms.replace key (.tables finished inner)
    | some _ => none

def define (key : String) (ms : Members) : Option Members :=
  -- Defines a table by its header, which may come once.
  match ms.get? key with
  | none => some (ms.add key (.table .header []))
  | some (.table .parent inner) => some (ms.replace key (.table .header inner))
  | some _ => none

def openNext (key : String) (ms : Members) : Option Members :=
  match ms.get? key with
  | none => some (ms.add key (.tables [] []))
  | some (.tables finished inner) => some (ms.replace key (.tables (finished ++ [inner]) []))
  | some _ => none

end Members

structure Key where
  parents : List String
  last : String

namespace Key

def path (k : Key) : List String :=
  k.parents ++ [k.last]

end Key

inductive Statement
  | assign (key : Key) (value : Node)
  | header (key : Key)
  | arrayHeader (key : Key)

structure Document where
  root : Members
  current : List String

namespace Document

def apply (d : Document) : Statement → Option Document
  | .assign key value => do
    return { d with root := ← d.root.modify (Members.assign key.last value key.parents) d.current }
  | .header key => do
    return ⟨← d.root.modify (Members.define key.last) key.parents, key.path⟩
  | .arrayHeader key => do
    return ⟨← d.root.modify (Members.openNext key.last) key.parents, key.path⟩

def ofStatements? (statements : List Statement) : Option Members := do
  return (← statements.foldlM apply ⟨[], []⟩).root

end Document
end SenderPolicy.Toml
