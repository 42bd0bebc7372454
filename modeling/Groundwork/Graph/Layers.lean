import Groundwork.Graph.FileGraph

/-!
Layers of a graph. For each position it is counted how many of its dependencies are not placed yet; a
position is placed in the layer after the one in which its count came to zero. What lies on a cycle or
depends on one keeps a count above zero; all of that forms one last layer.
-/

namespace Groundwork.Graph

namespace FileGraph

/-- Takes one from the count of every position that is listed, as often as it is listed. Beside the
counts it gives the positions whose count came to zero. -/
def release (counts : List Int) : List Nat → List Int × List Nat
  | [] => (counts, [])
  | i :: rest =>
    let lowered := counts.modify i (· - 1)
    let (final, freed) := release lowered rest
    (final, if lowered[i]? = some 0 then i :: freed else freed)

def remaining (g : FileGraph) (placed : List Nat) : List Nat :=
  (List.range g.size).filter fun i => !placed.contains i

def lastLayer (g : FileGraph) (placed : List Nat) : List (List Nat) :=
  if (g.remaining placed).isEmpty then [] else [g.remaining placed]

def layersFrom (g : FileGraph) :
    Nat → List Int → List Nat → List Nat → Option (List (List Nat))
  | _, _, placed, [] => some (g.lastLayer placed)
  | 0, _, _, _ :: _ => none
  | rounds + 1, counts, placed, current =>
    let (counts, freed) := release counts (current.flatMap g.dependentsOf)
    (g.layersFrom rounds counts (current ++ placed) freed.mergeSort).map (current :: ·)

@[simp] theorem layersFrom_nil (g : FileGraph) (rounds : Nat) (counts : List Int)
    (placed : List Nat) : g.layersFrom rounds counts placed [] = some (g.lastLayer placed) := by
  cases rounds <;> rfl

def dependencyCounts (g : FileGraph) : List Int := g.dependencies.map fun targets => targets.length

/-- The layers, if one round for each position is enough to place what can be placed. -/
def layers? (g : FileGraph) : Option (List (List Nat)) :=
  g.layersFrom g.size g.dependencyCounts []
    ((List.range g.size).filter fun i => g.dependencyCounts[i]? = some 0)

def layers (g : FileGraph) : List (List Nat) := g.layers?.getD []

end FileGraph

structure Position where
  x : Int
  y : Int
  deriving DecidableEq, Repr

def Position.toJson (p : Position) : Json :=
  .obj [("x", .int p.x), ("y", .float (Float.ofInt p.y))]

def layerWidth : Int := 250

def nodeHeight : Int := 120

def placeLayer (number : Nat) (layer : List Nat) : List (Nat × Position) :=
  layer.zipIdx.map fun (i, k) =>
    (i, ⟨layerWidth * number, nodeHeight * k - nodeHeight / 2 * (layer.length - 1 : Int)⟩)

def placeLayers (layers : List (List Nat)) : List (Nat × Position) :=
  layers.zipIdx.flatMap fun (layer, number) => placeLayer number layer

end Groundwork.Graph
