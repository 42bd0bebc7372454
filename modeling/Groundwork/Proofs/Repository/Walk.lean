import Groundwork.Proofs.Text.Pieces
import Groundwork.Repository.Survey
import Mathlib.Data.List.Nodup

/-!
The paths of the files of a repository. The names in a folder differ and none of them holds a slash, so no
two files have one path, neither as a list of names nor as a text.
-/

namespace Groundwork

namespace Text

theorem splitChars_intercalate {sep : Char} {first : List Char} {others : List (List Char)}
    (plain : ∀ part ∈ first :: others, sep ∉ part) :
    splitChars sep ([sep].intercalate (first :: others)) = first :: others := by
  induction others generalizing first with
  | nil =>
      rw [List.intercalate_singleton]
      exact splitChars_of_notMem (plain first List.mem_cons_self)
  | cons second rest ih =>
      have later : ∀ part ∈ second :: rest, sep ∉ part :=
        fun part member => plain part (List.mem_cons_of_mem first member)
      rw [List.intercalate_cons_cons, List.append_assoc, List.singleton_append, splitChars_append,
        ih later, splitChars_of_notMem (plain first List.mem_cons_self), List.singleton_append]

theorem split_join {parts : List String} (some : parts ≠ [])
    (plain : ∀ part ∈ parts, '/' ∉ part.toList) : split '/' (join "/" parts) = parts := by
  obtain ⟨first, others, rfl⟩ := List.exists_cons_of_ne_nil some
  have apart : splitChars '/' (join "/" (first :: others)).toList =
      (first :: others).map String.toList := by
    rw [join, String.toList_intercalate]
    apply splitChars_intercalate
    intro part member
    obtain ⟨text, among, rfl⟩ := List.mem_map.mp (List.map_cons ▸ member)
    exact plain text among
  rw [split, apart, List.map_map]
  simp

end Text

namespace FileTree

inductive Proper : FileTree → Prop
  | file (content : StoredFile) : Proper (file content)
  | link (target : String) : Proper (link target)
  | folder {entries : List (String × FileTree)} : (entries.map (·.1)).Nodup →
      (∀ entry ∈ entries, '/' ∉ entry.1.toList) → (∀ entry ∈ entries, Proper entry.2) →
      Proper (folder entries)

theorem walkEntries_eq (entries : List (String × FileTree)) :
    walkEntries entries = entries.map walkEntry := by
  induction entries with
  | nil => rw [walkEntries, List.map_nil]
  | cons entry rest ih => rw [walkEntries, ih, List.map_cons]

theorem inOrder_perm (found : List (String × List FoundFile)) :
    (inOrder found).Perm (found.flatMap (·.2)) :=
  (List.mergeSort_perm found _).flatMap_right _

theorem walk_folder_perm (entries : List (String × FileTree)) :
    (folder entries).walk.Perm (entries.flatMap fun entry => (walkEntry entry).2) := by
  rw [walk, walkEntries_eq]
  exact (inOrder_perm _).trans (by rw [List.flatMap_map])

theorem walkEntry_cases (name : String) (tree : FileTree) :
    (walkEntry (name, tree)).2 = [] ∨ (∃ content, (walkEntry (name, tree)).2 = [⟨[name], content⟩]) ∨
      (walkEntry (name, tree)).2 = tree.walk.map (·.under name) := by
  cases tree with
  | file content =>
      rw [walkEntry]
      split
      · exact Or.inr (Or.inl ⟨content, rfl⟩)
      · exact Or.inl rfl
  | folder entries =>
      rw [walkEntry, walk]
      split
      · exact Or.inl rfl
      · exact Or.inr (Or.inr rfl)
  | link target => exact Or.inl (by rw [walkEntry])

def Readable (path : List String) : Prop := path ≠ [] ∧ ∀ name ∈ path, '/' ∉ name.toList

theorem walkEntry_paths {name : String} {tree : FileTree} (plain : '/' ∉ name.toList)
    (readable : ∀ f ∈ tree.walk, Readable f.path) (nodup : (tree.walk.map (·.path)).Nodup) :
    (∀ f ∈ (walkEntry (name, tree)).2, Readable f.path ∧ f.path.head? = some name) ∧
      ((walkEntry (name, tree)).2.map (·.path)).Nodup := by
  rcases walkEntry_cases name tree with none | ⟨content, one⟩ | inner
  · rw [none]
    simp
  · rw [one]
    simp [Readable, plain]
  · rw [inner, List.map_map]
    constructor
    · intro f member
      obtain ⟨g, among, rfl⟩ := List.mem_map.mp member
      refine ⟨⟨List.cons_ne_nil _ _, ?_⟩, rfl⟩
      exact List.forall_mem_cons.mpr ⟨plain, (readable g among).2⟩
    · have prefixed : FoundFile.path ∘ (FoundFile.under name) = (name :: ·) ∘ FoundFile.path := rfl
      rw [prefixed, ← List.map_map]
      exact nodup.map (List.cons_injective)

theorem Proper.walk_paths {tree : FileTree} (proper : tree.Proper) :
    (∀ f ∈ tree.walk, Readable f.path) ∧ (tree.walk.map (·.path)).Nodup := by
  induction proper with
  | file content => simp [walk]
  | link target => simp [walk]
  | @folder entries distinct plain _ ih =>
      have under (entry : String × FileTree) (member : entry ∈ entries) :=
        walkEntry_paths (plain entry member) (ih entry member).1 (ih entry member).2
      constructor
      · intro f member
        obtain ⟨entry, among, found⟩ := List.mem_flatMap.mp ((walk_folder_perm entries).subset member)
        exact ((under entry among).1 f found).1
      · rw [((walk_folder_perm entries).map _).nodup_iff, List.map_flatMap, List.nodup_flatMap]
        refine ⟨fun entry member => (under entry member).2, ?_⟩
        refine (List.pairwise_map.mp distinct).imp_of_mem fun {one other} isOne isOther differ => ?_
        intro path inOne inOther
        obtain ⟨f, found, rfl⟩ := List.mem_map.mp inOne
        obtain ⟨g, among, same⟩ := List.mem_map.mp inOther
        have first := ((under one isOne).1 f found).2
        rw [← same, ((under other isOther).1 g among).2] at first
        exact differ (Option.some.inj first).symm

theorem Proper.texts_nodup {tree : FileTree} (proper : tree.Proper) :
    (tree.walk.map (·.text)).Nodup := by
  have texts : tree.walk.map (·.text) = (tree.walk.map (·.path)).map (Text.join "/") := by
    rw [List.map_map]
    rfl
  obtain ⟨readable, nodup⟩ := proper.walk_paths
  rw [texts]
  refine nodup.map_on ?_
  intro path member other among same
  obtain ⟨f, isFile, rfl⟩ := List.mem_map.mp member
  obtain ⟨g, isOther, rfl⟩ := List.mem_map.mp among
  rw [← Text.split_join (readable f isFile).1 (readable f isFile).2, same,
    Text.split_join (readable g isOther).1 (readable g isOther).2]

end FileTree

namespace FileRecord

theorem analyze_path (parse : Parser) (path text : String) (size : Nat) (modified : String) :
    (analyze parse path text size modified).path = path := by
  unfold analyze
  cases Grammar.ofPath? path with
  | none => rfl
  | some grammar =>
      dsimp only
      cases parse grammar text <;> rfl

theorem ofFile_path (parse : Parser) (f : FileTree.FoundFile) :
    (ofFile parse f).path = f.text := by
  unfold ofFile
  cases f.content.text? with
  | none => rfl
  | some text => exact analyze_path ..

end FileRecord

theorem Analysis.ofTree_paths {tree : FileTree} (proper : tree.Proper) (parse : Parser)
    (url branch : String) : ((Analysis.ofTree parse tree url branch).files.map (·.path)).Nodup := by
  have paths : (Analysis.ofTree parse tree url branch).files.map (·.path) =
      tree.walk.map (·.text) := by
    rw [Analysis.ofTree, List.map_map]
    exact List.map_congr_left fun f _ => FileRecord.ofFile_path parse f
  rw [paths]
  exact proper.texts_nodup

end Groundwork
