import Groundwork.Failure
import Groundwork.FilePath
import Groundwork.Timestamp

/-!
Trees of files, folders and symbolic links, and the walk over the files of a repository. Links are
never followed, so the walk stays inside the tree.
-/

namespace Groundwork

/-- A file, which may withhold its bytes. -/
structure StoredFile where
  bytes : ByteArray
  modified : Timestamp := ⟨0⟩
  isReadable : Bool := true

namespace StoredFile

def unifyLineEnds : List Char → List Char
  | '\r' :: '\n' :: rest => '\n' :: unifyLineEnds rest
  | '\r' :: rest => '\n' :: unifyLineEnds rest
  | c :: rest => c :: unifyLineEnds rest
  | [] => []

def text? (f : StoredFile) : Option String :=
  if f.isReadable then
    (String.fromUTF8? f.bytes).map fun s => String.ofList (unifyLineEnds s.toList)
  else none

def ofText (s : String) (modified : Timestamp := ⟨0⟩) : StoredFile := { bytes := s.toUTF8, modified }

end StoredFile

inductive FileTree where
  | file (content : StoredFile)
  | folder (entries : List (String × FileTree))
  | link (target : String)
  deriving Inhabited

namespace FileTree

def empty : FileTree := folder []

def skippedFolders : List String :=
  ["node_modules", "dist", "build", ".git", ".next", "coverage", ".nuxt", "vendor",
    "__pycache__", ".pytest_cache", ".vscode", ".idea", "target", "bin", "obj",
    ".gradle", ".cache", ".expo", ".turbo", ".parcel-cache"]

def includedSuffixes : List String :=
  [".js", ".ts", ".jsx", ".tsx", ".mjs", ".cjs", ".py", ".java", ".go", ".rb", ".php",
    ".cpp", ".c", ".cs", ".swift", ".kt", ".rs", ".dart", ".scala", ".html", ".css",
    ".scss", ".json", ".yaml", ".yml", ".md"]

def isIncluded (name : String) : Bool := includedSuffixes.contains (suffixOf name)

structure FoundFile where
  path : List String
  content : StoredFile

def FoundFile.under (name : String) (f : FoundFile) : FoundFile := { f with path := name :: f.path }

def FoundFile.text (f : FoundFile) : String := Text.join "/" f.path

def inOrder (found : List (String × List FoundFile)) : List FoundFile :=
  (found.mergeSort fun a b => decide (a.1 ≤ b.1)).flatMap (·.2)

mutual

/-- The included files below a folder. The files of each folder are ordered by name, with the files of
an inner folder in its place. -/
def walk : FileTree → List FoundFile
  | folder entries => inOrder (walkEntries entries)
  | file _ => []
  | link _ => []

def walkEntries : List (String × FileTree) → List (String × List FoundFile)
  | [] => []
  | entry :: rest => walkEntry entry :: walkEntries rest

def walkEntry : String × FileTree → String × List FoundFile
  | (name, file content) => (name, if isIncluded name then [⟨[name], content⟩] else [])
  | (name, folder entries) =>
    (name, if skippedFolders.contains name then []
      else (inOrder (walkEntries entries)).map (·.under name))
  | (name, link _) => (name, [])

end

def at? : List String → FileTree → Option FileTree
  | [], tree => some tree
  | name :: path, folder entries => (entries.lookup name).bind (at? path)
  | _ :: _, _ => none

def setEntry (name : String) (tree : FileTree) : List (String × FileTree) → List (String × FileTree)
  | [] => [(name, tree)]
  | (n, t) :: rest => if n = name then (name, tree) :: rest else (n, t) :: setEntry name tree rest

/-- Puts something at a path and makes the folders above it. Nothing can be put below a file. -/
def put (tree : FileTree) (path : List String) (piece : FileTree) : Option FileTree :=
  match path, tree with
  | [], _ => some piece
  | name :: path, folder entries =>
    (put ((entries.lookup name).getD empty) path piece).map fun t => folder (setEntry name t entries)
  | _ :: _, _ => none

def isBlocked (path : List String) (tree : FileTree) : Bool :=
  (List.range path.length).any fun n =>
    match at? (path.take n) tree with
    | some (folder _) => false
    | some _ => true
    | none => false

def makeFolder (path : List String) (tree : FileTree) : Except FileFault FileTree :=
  match at? path tree with
  | some (folder _) => .ok tree
  | some _ => .error .alreadyThere
  | none =>
    match tree.put path empty with
    | some grown => .ok grown
    | none => .error .notFolder

def write (path : List String) (content : StoredFile) (tree : FileTree) :
    Except FileFault FileTree :=
  match at? path tree, at? path.dropLast tree with
  | some (folder _), _ => .error .isFolder
  | _, some (folder _) =>
    match tree.put path (file content) with
    | some grown => .ok grown
    | none => .error .notFolder
  | _, _ => .error (if isBlocked path tree then .notFolder else .missing)

end FileTree

end Groundwork
