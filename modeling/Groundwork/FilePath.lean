import Groundwork.Text.Basic

/-!
File paths with `/` between their parts. Empty parts and `.` carry no meaning and are dropped;
`..` is kept as a part.
-/

namespace Groundwork

/-- A root, which is empty for a relative path, and the parts below it. -/
structure FilePath where
  root : String
  parts : List String
  deriving DecidableEq, Repr

namespace FilePath

def rootOf : List Char → String
  | '/' :: '/' :: '/' :: _ => "/"
  | '/' :: '/' :: _ => "//"
  | '/' :: _ => "/"
  | _ => ""

def partsOf (s : String) : List String :=
  (Text.split '/' s).filter fun part => part != "" && part != "."

def ofText (s : String) : FilePath := ⟨rootOf s.toList, partsOf s⟩

def text (p : FilePath) : String :=
  if p.root.isEmpty && p.parts.isEmpty then "." else p.root ++ Text.join "/" p.parts

def name (p : FilePath) : String := p.parts.getLastD ""

def parent (p : FilePath) : FilePath := { p with parts := p.parts.dropLast }

def isAbsolute (p : FilePath) : Bool := !p.root.isEmpty

def append (p q : FilePath) : FilePath :=
  if q.isAbsolute then q else { p with parts := p.parts ++ q.parts }

def collapseParts (parts : List String) : List String :=
  (parts.foldl (fun kept part => if part = ".." then kept.drop 1 else part :: kept) []).reverse

/-- The path without `..`, as if none of its folders were a link. -/
def collapse (p : FilePath) : FilePath := { p with parts := collapseParts p.parts }

def withFoldersAbove (p : FilePath) : List FilePath :=
  ((List.range (p.parts.length + 1)).drop 1).map fun n => { p with parts := p.parts.take n }

/-- The last point of a name and what follows it. A point that begins or ends the name is none. -/
def suffixOfName (name : List Char) : List Char :=
  let after := (name.reverse.takeWhile (· != '.')).reverse
  if after.isEmpty || after.length + 1 ≥ name.length then [] else '.' :: after

def suffix (p : FilePath) : String := String.ofList (suffixOfName p.name.toList)

end FilePath

def suffixOf (path : String) : String := Text.lower (FilePath.ofText path).suffix

end Groundwork
