import Groundwork.Planning.Phase

/-!
Normal form of phases that a provider proposed: few enough, numbered from one, with files that are
allowed, dependencies on earlier phases and valid labels.
-/

namespace Groundwork.Planning

/-- The ids that phases were given by the provider, with the ids they have now; the latest first. -/
abbrev Renaming := List (String × String)

def labelOr (default : String) (texts : List String) (label : Json) : Json :=
  if isLabel texts label then label else .str default

def renameDependencies (names : Renaming) (own : String) (dependencies : List String) :
    List String :=
  (dependencies.filterMap fun id => List.lookup id names).filter (· != own)

def normalizePhase (allowed : List String) (names : Renaming) (position : Nat) (p : Phase) :
    Phase :=
  { p with
    id := phaseId position
    relevantFiles := (Text.distinct p.relevantFiles).filter allowed.contains
    dependencies := renameDependencies names (phaseId position) p.dependencies
    complexity := labelOr "medium" levels p.complexity
    priority := labelOr "medium" levels p.priority
    category := labelOr "improvement" categories p.category }

/-- Takes phases from the items until the limit is reached. Items that are no objects or lack a
required member are passed over; other faults end it. -/
def takePhases (allowed : List String) (limit : Int) :
    List Json → Nat → Renaming → Except DataFault (List Phase)
  | [], _, _ => .ok []
  | item :: rest, position, names =>
    if limit ≤ position then .ok []
    else match item with
      | .obj members =>
        match Phase.ofMembers members with
        | .ok p =>
          let names := (p.id, phaseId position) :: names
          match takePhases allowed limit rest (position + 1) names with
          | .ok phases => .ok (normalizePhase allowed names position p :: phases)
          | .error fault => .error fault
        | .error .missingKey => takePhases allowed limit rest position names
        | .error fault => .error fault
      | _ => takePhases allowed limit rest position names

def phaseItems? : Json → Option (List Json)
  | .arr items => some items
  | .obj members =>
    match members.lookup "phases" with
    | some (.arr items) => some items
    | _ => none
  | _ => none

def normalizePhases (answer : Json) (allowed : List String) (limit : Int) :
    Except Failure (List Phase) :=
  match phaseItems? answer with
  | none => .error (.generation .noPhaseList)
  | some items =>
    match takePhases allowed limit items 0 [] with
    | .error fault => .error (.data fault)
    | .ok [] => .error (.generation .noUsablePhases)
    | .ok phases => .ok phases

end Groundwork.Planning
