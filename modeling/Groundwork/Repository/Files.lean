import Groundwork.Repository.FileTree

/-!
Access to files. A path is looked up below some root; files held in a tree are one way to do so.
-/

namespace Groundwork

structure Files (m : Type → Type) where
  at? : FilePath → m (Option FileTree)
  makeFolder : FilePath → m (Except FileFault Unit)
  write : FilePath → String → m (Except FileFault Unit)

namespace Files

def update {σ : Type} (set : FileTree → σ → σ) (changed : Except FileFault FileTree) :
    StateM σ (Except FileFault Unit) := fun state =>
  match changed with
  | .ok tree => (.ok (), set tree state)
  | .error fault => (.error fault, state)

def inTree {σ : Type} (tree : σ → FileTree) (set : FileTree → σ → σ) : Files (StateM σ) where
  at? path := do return FileTree.at? path.collapse.parts (tree (← get))
  makeFolder path := do update set (FileTree.makeFolder path.collapse.parts (tree (← get)))
  write path text := do update set (FileTree.write path.collapse.parts (.ofText text) (tree (← get)))

end Files

end Groundwork
