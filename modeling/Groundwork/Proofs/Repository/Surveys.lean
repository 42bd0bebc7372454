import Groundwork.Proofs.Repository.Walk

/-!
What the analysis of a repository covers. There is one record for each file with an included suffix that
is reached through folders that are not left out, and none for anything else; links are not followed. The
records stand in the order of their paths, and a code file is either analysed or says that it could not
be read or parsed.
-/

namespace Groundwork

namespace FileTree

/-- The tree has a file of an included suffix at the path, and no folder on the way to it is left out. A
link is neither a file nor a folder, so nothing lies at or below it. -/
structure Offers (tree : FileTree) (path : List String) (content : StoredFile) : Prop where
  file : tree.at? path = some (.file content)
  included : path.getLast?.any isIncluded = true
  entered : ∀ name ∈ path.dropLast, name ∉ skippedFolders

end FileTree

/-! ### Records -/

namespace FileRecord

open FileTree (FoundFile)

end FileRecord

namespace Analysis

open FileTree (FoundFile)

structure Covers (a : Analysis) (parse : Parser) (tree : FileTree) : Prop where
  records : ∃ found : List FoundFile, a.files = found.map (FileRecord.ofFile parse) ∧
    found.Nodup ∧ ∀ f, f ∈ found ↔ tree.Offers f.path f.content
  distinct : (a.files.map (·.path)).Nodup
  ordered : (a.files.map fun r => Text.split '/' r.path).Pairwise (· < ·)
  total : a.stats.totalFiles = a.files.length
  code : a.stats.codeFiles = a.files.countP fun r => isCodeFile r.path
  analyzed : a.stats.analyzedFiles + a.files.countP (fun r => isCodeFile r.path && r.isDegraded) =
    a.stats.codeFiles

end Analysis

end Groundwork
