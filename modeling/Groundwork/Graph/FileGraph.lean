import Groundwork.Graph.Resolve

/-!
A directed graph on the positions of a list of paths. The dependencies of a position are the
positions it points to, its dependents those that point to it.
-/

namespace Groundwork.Graph

structure FileGraph where
  paths : List String
  dependencies : List (List Nat)
  dependents : List (List Nat)
  deriving Repr

structure Edge where
  source : String
  target : String
  deriving DecidableEq, Repr

namespace Edge

def id (e : Edge) : String := e.source ++ "->" ++ e.target

def toJson (e : Edge) : Json :=
  .obj [("id", .str e.id), ("source", .str e.source), ("target", .str e.target)]

end Edge

namespace FileGraph

def ofPaths (paths : List String) : FileGraph :=
  ⟨paths, paths.map fun _ => [], paths.map fun _ => []⟩

def size (g : FileGraph) : Nat := g.paths.length

/-- The position of a path; of a repeated path the last one. -/
def position? (g : FileGraph) (path : String) : Option Nat :=
  (g.paths.reverse.idxOf? path).map fun i => g.size - 1 - i

def dependenciesOf (g : FileGraph) (i : Nat) : List Nat := g.dependencies.getD i []

def dependentsOf (g : FileGraph) (i : Nat) : List Nat := g.dependents.getD i []

def pathAt (g : FileGraph) (i : Nat) : String := g.paths.getD i ""

def HasEdge (g : FileGraph) (i j : Nat) : Prop := j ∈ g.dependenciesOf i

instance (g : FileGraph) (i j : Nat) : Decidable (g.HasEdge i j) :=
  inferInstanceAs (Decidable (j ∈ g.dependenciesOf i))

def withEdge (g : FileGraph) (i j : Nat) : FileGraph :=
  { g with
    dependencies := g.dependencies.modify i (· ++ [j])
    dependents := g.dependents.modify j (· ++ [i]) }

/-- Adds an edge between two known and different paths, and tells whether it is new. -/
def addEdge (g : FileGraph) (source target : String) : Bool × FileGraph :=
  match g.position? source, g.position? target with
  | some i, some j => if i = j ∨ g.HasEdge i j then (false, g) else (true, g.withEdge i j)
  | _, _ => (false, g)

def addEdges (g : FileGraph) (pairs : List (String × String)) : FileGraph :=
  pairs.foldl (fun g (source, target) => (g.addEdge source target).2) g

def ofMap (map : DependencyMap) : FileGraph :=
  (ofPaths (map.map (·.1))).addEdges
    (map.flatMap fun (source, targets) => targets.map fun target => (source, target))

def edges (g : FileGraph) : List Edge :=
  (List.range g.size).flatMap fun i =>
    (g.dependenciesOf i).map fun j => ⟨g.pathAt i, g.pathAt j⟩

def entryPoints (g : FileGraph) : List String :=
  ((List.range g.size).filter fun i => (g.dependentsOf i).isEmpty).map g.pathAt

end FileGraph

end Groundwork.Graph
