/-! Files as values: whether there is one, what reading it can give, and a directory that holds all
of them. -/
namespace SenderPolicy

inductive ReadFault
  | notFound
  | notDirectory
  | isDirectory
  | notText
  /-- Any other fault, in the words of the system. -/
  | other (message : String)
  deriving DecidableEq, Repr

def ReadFault.message : ReadFault → String
  | notFound => "No such file or directory (os error 2)"
  | notDirectory => "Not a directory (os error 20)"
  | isDirectory => "Is a directory (os error 21)"
  | notText => "stream did not contain valid UTF-8"
  | other message => message

/-- Files by their paths. To look whether something is there and to read it are two calls to the
system. A path through a file, a loop of links or a directory that may not be searched keeps both
from it, while a file that may not be read, or a directory in its place, is found and gives no
text. -/
structure Files where
  isFound : String → Bool
  read : String → Except ReadFault String

/-- A working directory without directories in it, and its files by their names. What
lies above it is not known. -/
structure Directory where
  files : List (String × ByteArray)

namespace Directory

inductive Place
  -- Where a path has led so far.
  | here
  | above
  | file (content : ByteArray)

def step (d : Directory) : Place → String → Except ReadFault Place
  | .file _, _ => .error .notDirectory
  | place, "" | place, "." => .ok place
  | _, ".." => .ok .above
  | .here, name =>
    match d.files.find? (·.1 == name) with
    | some (_, content) => .ok (.file content)
    | none => .error .notFound
  | .above, _ => .error .notFound

def place (d : Directory) (path : String) : Except ReadFault Place :=
  -- Where a path leads. Every part of it but the last has to be a directory.
  if path.isEmpty then .error .notFound
  else
    let start := if path.toList.head? = some '/' then .above else .here
    ((path.toList.splitOn '/').map String.ofList).foldlM d.step start

def text : Place → Except ReadFault String
  | .file content =>
    match String.fromUTF8? content with
    | some text => .ok text
    | none => .error .notText
  | _ => .error .isDirectory

def read (d : Directory) : Files where
  isFound path := (d.place path).isOk
  read path := do text (← d.place path)

end Directory
end SenderPolicy
