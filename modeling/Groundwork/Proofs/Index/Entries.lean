import Groundwork.Proofs.Index.Keys
import Mathlib.Data.List.Forall2

/-!
What the index of a repository consists of: an entry for the whole, entries for the files that matter,
each with its functions, classes and grave issues, and an entry for each language.
-/

namespace Groundwork.Index

open Text

def Entry.Shows (e : Entry) (kind : String) (details : Json.Members) : Prop :=
  ∀ d ∈ ("type", Json.str kind) :: details, e.metadata.lookup d.1 = some d.2

theorem shows_make {repo content searchable : String} {key : Key} {fields details : Json.Members}
    (among : ∀ d ∈ details, d.1 ≠ "type" ∧ d.1 ≠ "repoName" ∧ fields.lookup d.1 = some d.2) :
    (Entry.make repo key content searchable fields).Shows key.kind details := by
  intro d member
  rw [List.mem_cons] at member
  rcases member with rfl | member
  · rfl
  · obtain ⟨notType, notName, found⟩ := among d member
    have skipped : ([("type", .str key.kind), ("repoName", .str repo)] : Json.Members).lookup d.1 =
        none := by
      simp [List.lookup_cons, beq_false_of_ne notType, beq_false_of_ne notName]
    rw [Entry.metadata, Entry.make, List.lookup_append, List.lookup_append, skipped, found]
    rfl

structure PartEntries (r : FileRecord) (functions classes : List Entry) : Prop where
  functions : List.Forall₂
    (fun f e => e.Shows "function" [("filePath", .str r.path), ("functionName", .str f.name)])
    (r.functions.filter fun f => f.name ≠ "" ∧ f.name ≠ "<anonymous>") functions
  classes : List.Forall₂
    (fun c e => e.Shows "class" [("filePath", .str r.path), ("className", .str c.name)])
    (r.classes.filter fun c => c.name ≠ "") classes

/-- The entries of one file: its own, those of its functions and classes if it is important, and one for
its issues if one of them is grave. -/
structure FileBlock (r : FileRecord) (file : Entry) (functions classes issues : List Entry) : Prop where
  file : file.Shows "file" [("filePath", .str r.path)]
  important : r.priority = some .high ∨ r.priority = some .critical → PartEntries r functions classes
  unimportant : ¬ (r.priority = some .high ∨ r.priority = some .critical) →
    functions = [] ∧ classes = []
  grave : (∃ i ∈ r.issueList, i.severity = .critical ∨ i.severity = .high) →
    ∃ e, issues = [e] ∧ e.Shows "issues" [("filePath", .str r.path)]
  harmless : (¬ ∃ i ∈ r.issueList, i.severity = .critical ∨ i.severity = .high) → issues = []

def IsFileBlock (r : FileRecord) (block : List Entry) : Prop :=
  ∃ file functions classes issues, block = file :: (functions ++ classes ++ issues) ∧
    FileBlock r file functions classes issues

theorem forall₂_zipIdx {α β : Type} {R : α → β → Prop} {make : α × Nat → β} {p : α → Bool}
    (each : ∀ x, R x.1 (make x)) (xs : List α) :
    List.Forall₂ R (xs.filter p) ((xs.zipIdx.filter fun x => p x.1).map make) := by
  have same : xs.filter p = (xs.zipIdx.filter fun x => p x.1).map Prod.fst := by
    rw [← List.zipIdx_map_fst 0 xs, List.filter_map, List.zipIdx_map_fst]
    rfl
  rw [same, List.forall₂_map_left_iff, List.forall₂_map_right_iff]
  exact List.forall₂_same.mpr fun x _ => each x

theorem isImportant_iff (r : FileRecord) :
    isImportant r = true ↔ r.priority = some .high ∨ r.priority = some .critical := by
  simp [isImportant]

theorem graveIssues_isEmpty_iff (r : FileRecord) :
    (graveIssues r).isEmpty = true ↔
      ¬ ∃ i ∈ r.issueList, i.severity = .critical ∨ i.severity = .high := by
  simp [graveIssues, issuesOf, not_or, forall_and]

theorem functionEntries_show (a : Analysis) (index : Nat) (r : FileRecord) :
    List.Forall₂
      (fun f e => e.Shows "function" [("filePath", .str r.path), ("functionName", .str f.name)])
      (r.functions.filter fun f => f.name ≠ "" ∧ f.name ≠ "<anonymous>")
      (functionEntries a index r) := by
  have named (x : FunctionInfo × Nat) : (x.1.name != "" && x.1.name != FunctionInfo.anonymous) =
      decide (x.1.name ≠ "" ∧ x.1.name ≠ "<anonymous>") := by
    rw [Bool.eq_iff_iff]
    simp [FunctionInfo.anonymous]
  have each (x : FunctionInfo × Nat) : (functionEntry a r index x.2 x.1).Shows "function"
      [("filePath", .str r.path), ("functionName", .str x.1.name)] := by
    exact shows_make (by simp [List.lookup_cons])
  simp only [functionEntries, named]
  exact forall₂_zipIdx each r.functions

theorem classEntries_show (a : Analysis) (index : Nat) (r : FileRecord) :
    List.Forall₂
      (fun c e => e.Shows "class" [("filePath", .str r.path), ("className", .str c.name)])
      (r.classes.filter fun c => c.name ≠ "") (classEntries a index r) := by
  have named (x : ClassInfo × Nat) : (x.1.name != "") = decide (x.1.name ≠ "") := by
    rw [Bool.eq_iff_iff]
    simp
  have each (x : ClassInfo × Nat) : (classEntry a r index x.2 x.1).Shows "class"
      [("filePath", .str r.path), ("className", .str x.1.name)] := by
    exact shows_make (by simp [List.lookup_cons])
  simp only [classEntries, named]
  exact forall₂_zipIdx each r.classes

theorem fileEntries_block (a : Analysis) (index : Nat) (r : FileRecord) :
    IsFileBlock r (fileEntries a index r) := by
  refine ⟨fileEntry a index r, if isImportant r then functionEntries a index r else [],
    if isImportant r then classEntries a index r else [],
    if (graveIssues r).isEmpty then [] else [issuesEntry a index r], ?_, ?_⟩
  · unfold fileEntries
    split <;> simp
  · constructor
    · exact shows_make (by simp [List.lookup_cons])
    · intro important
      rw [if_pos ((isImportant_iff r).mpr important), if_pos ((isImportant_iff r).mpr important)]
      exact ⟨functionEntries_show a index r, classEntries_show a index r⟩
    · intro unimportant
      rw [if_neg (mt (isImportant_iff r).mp unimportant), if_neg (mt (isImportant_iff r).mp unimportant)]
      exact ⟨rfl, rfl⟩
    · intro grave
      rw [if_neg (mt (graveIssues_isEmpty_iff r).mp (not_not_intro grave))]
      refine ⟨_, rfl, ?_⟩
      exact shows_make (by simp [List.lookup_cons])
    · intro harmless
      exact if_pos ((graveIssues_isEmpty_iff r).mpr harmless)

theorem languageEntries_show (a : Analysis) :
    List.Forall₂ (fun name e => e.Shows "language_summary" [("language", .str name),
        ("totalFiles", .int ((a.files.map (·.language)).count name))])
      (distinct (a.files.map (·.language)))
      ((languageCounts a.files).map fun (language, count) => languageEntry a language count) := by
  rw [languageCounts, List.map_map, List.forall₂_map_right_iff]
  refine List.forall₂_same.mpr fun name _ => ?_
  exact shows_make (by simp [List.lookup_cons])

theorem fileEntries_blocks (a : Analysis) :
    ∃ blocks, (significantFiles a).zipIdx.flatMap (fun (r, index) => fileEntries a index r) =
      blocks.flatten ∧ List.Forall₂ IsFileBlock (significantFiles a) blocks := by
  refine ⟨(significantFiles a).zipIdx.map fun (r, index) => fileEntries a index r, rfl, ?_⟩
  have beside : List.Forall₂ IsFileBlock ((significantFiles a).filter fun _ => true)
      (((significantFiles a).zipIdx.filter fun _ => true).map fun (r, index) =>
        fileEntries a index r) :=
    forall₂_zipIdx (fun x => fileEntries_block a x.2 x.1) (significantFiles a)
  simpa using beside

/-- The ids and the order of the entries of a repository. -/
theorem entries_layout (a : Analysis) :
    ((entries a).map (·.id)).Nodup ∧ ∃ overview blocks names languages,
      entries a = overview :: blocks.flatten ++ languages ∧
      overview.Shows "repository_overview" [] ∧
      List.Forall₂ IsFileBlock ((a.files.filter isSignificant).take 100) blocks ∧
      names.Nodup ∧ (∀ name, name ∈ names ↔ ∃ r ∈ a.files, r.language = name) ∧
      names.Pairwise (fun m n => (a.files.map (·.language)).idxOf m <
        (a.files.map (·.language)).idxOf n) ∧
      List.Forall₂ (fun name e => e.Shows "language_summary" [("language", .str name),
          ("totalFiles", .int ((a.files.map (·.language)).count name))]) names languages ∧
      (names.map fun name => (a.files.map (·.language)).count name).sum = a.files.length := by
  obtain ⟨blocks, flat, files⟩ := fileEntries_blocks a
  refine ⟨entries_ids_nodup a, overviewEntry a, blocks, distinct (a.files.map (·.language)), _, ?_, ?_,
    files, distinct_nodup _, ?_, distinct_pairwise _, languageEntries_show a, ?_⟩
  · rw [← flat]
    rfl
  · exact shows_make (by simp [List.lookup_cons])
  · intro name
    rw [mem_distinct, List.mem_map]
  · rw [sum_count_distinct, List.length_map]

end Groundwork.Index
