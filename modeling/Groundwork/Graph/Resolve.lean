import Groundwork.FilePath
import Groundwork.Record

/-!
From import specifiers to files. Only specifiers that begin with a point are resolved, against the
folder of the importing file; the result is always one of the known files.
-/

namespace Groundwork.Graph

def resolveSuffixes : List String := [".ts", ".tsx", ".js", ".jsx", ".json"]

def candidates (location : String) : List String :=
  resolveSuffixes.flatMap fun suffix => [location ++ suffix, location ++ "/index" ++ suffix]

def folderParts (file : String) : List String :=
  let folder := (FilePath.ofText file).parent.text
  if folder == "" || folder == "." then [] else Text.split '/' folder

/-- The parts of the location that a specifier names. It has none if it climbs above the top. -/
def locationParts? (folder specifier : List String) : Option (List String) :=
  match specifier with
  | ".." :: _ =>
    let ups := (specifier.takeWhile (· == "..")).length
    if folder.length < ups then none
    else some (folder.take (folder.length - ups) ++ specifier.drop ups)
  | "." :: rest => some (folder ++ rest)
  | _ => some (folder ++ specifier)

def resolve? (known : List String) (file specifier : String) : Option String :=
  if !Text.startsWith specifier "." then none
  else do
    let parts ← locationParts? (folderParts file) (Text.split '/' specifier)
    let location := Text.join "/" (parts.filter (· != ""))
    (candidates location).find? known.contains

abbrev DependencyMap := List (String × List String)

def setEntry (path : String) (targets : List String) : DependencyMap → DependencyMap
  | [] => [(path, targets)]
  | (p, ts) :: rest =>
    if p = path then (path, targets) :: rest else (p, ts) :: setEntry path targets rest

/-- The files that a record's imports resolve to, each once and never the file itself. -/
def targetsOf (known : List String) (r : FileRecord) : List String :=
  Text.distinct <| (r.imports.filterMap (resolve? known r.path)).filter (· != r.path)

def dependencyMap (files : List FileRecord) : DependencyMap :=
  let known := files.map (·.path)
  files.foldl (fun map r => setEntry r.path (targetsOf known r) map) []

def isEntryPoint (path : String) (map : DependencyMap) : Bool :=
  !map.any fun (source, targets) => source != path && targets.contains path

end Groundwork.Graph
