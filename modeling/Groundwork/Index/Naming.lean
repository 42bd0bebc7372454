import Groundwork.Text.Basic

/-!
Names under which a repository is known: its namespace in the store and its own short name.
-/

namespace Groundwork.Index

open Text

/-- A location without slashes at its end and without one ending `.git`. -/
def trimLocation (url : String) : String :=
  let trimmed := String.ofList (trimEnd (· == '/') (strip url).toList)
  if endsWith trimmed ".git" then dropEnd 4 trimmed else trimmed

/-- The part of a location before its last one; a location of one part has no owner. -/
def ownerPart (location : String) : String :=
  match (split '/' location).reverse with
  | _ :: owner :: _ => owner
  | _ => "local"

def lastPart (location : String) : String := (split '/' location).getLastD ""

def namespaceOf (url branch : String) : String :=
  join "-" [ownerPart (trimLocation url), lastPart (trimLocation url), branch]

def shortNameOf (url : String) : String :=
  let trimmed := String.ofList (trimEnd (· == '/') (strip url).toList)
  let last := lastPart trimmed
  let name := if endsWith last ".git" then dropEnd 4 last else last
  if name.isEmpty then "unknown" else name

end Groundwork.Index
