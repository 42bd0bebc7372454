import Groundwork.Index.Naming
import Groundwork.Repository.FileTree
import Groundwork.Source.Analysis

/-!
From the tree of a repository to its analysis: one base record for each included file, in the order
of the walk. A file whose bytes are no text gets a record that says so.
-/

namespace Groundwork

namespace FileRecord

def unreadable (path : String) (content : StoredFile) : FileRecord :=
  { path
    language := Language.ofPath path
    sizeBytes := content.bytes.size
    lastModified := content.modified.text
    description := unreadableDescription }

def ofFile (parse : Parser) (f : FileTree.FoundFile) : FileRecord :=
  match f.content.text? with
  | some text =>
    analyze parse f.text text f.content.bytes.size f.content.modified.text
  | none => unreadable f.text f.content

def isAnalyzed (r : FileRecord) : Bool := isCodeFile r.path && !r.isDegraded

end FileRecord

namespace Analysis

def trimUrl (url : String) : String := if Text.endsWith url ".git" then Text.dropEnd 4 url else url

def ofTree (parse : Parser) (tree : FileTree) (url branch : String) : Analysis :=
  let files := tree.walk.map (FileRecord.ofFile parse)
  { repoName := Index.shortNameOf url
    repoUrl := trimUrl url
    branch
    stats :=
      { totalFiles := files.length
        codeFiles := files.countP fun r => isCodeFile r.path
        analyzedFiles := files.countP (·.isAnalyzed)
        skippedFolders := FileTree.skippedFolders
        includedSuffixes := FileTree.includedSuffixes }
    files }

end Analysis

end Groundwork
