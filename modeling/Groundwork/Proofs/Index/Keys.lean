import Groundwork.Index.Entry
import Groundwork.Proofs.Text.Distinct
import Groundwork.Proofs.Text.Pieces

/-!
No two entries of an index have one id. An id is made from a key, and different keys give different ids,
so it is the keys of the entries that have to differ.
-/

namespace Groundwork.Index

open Text

section Ids

theorem dashed_injective {i j i' j' : Nat}
    (same : Nat.toDigits 10 i ++ '-' :: Nat.toDigits 10 j =
      Nat.toDigits 10 i' ++ '-' :: Nat.toDigits 10 j') : i = i' ∧ j = j' := by
  obtain ⟨first, second⟩ :=
    (cut_eq_iff (notMem_toDigits (by decide) i) (notMem_toDigits (by decide) i')).mp same
  exact ⟨toDigits_injective first, toDigits_injective second⟩

theorem Key.suffix_injective : Function.Injective Key.suffix := by
  intro k other same
  have chars := congrArg String.toList same
  -- Keys of different kinds begin with different words; numbers and names tell those of one kind apart.
  cases k <;> cases other <;> simp [Key.suffix, String.toList_append] at chars ⊢
  case file.file => exact toDigits_injective chars
  case function.function => exact dashed_injective chars
  case class.class => exact dashed_injective chars
  case issues.issues => exact toDigits_injective chars
  case language.language => exact String.toList_injective chars

theorem Key.id_injective (repo : String) : Function.Injective (Key.id repo) := by
  intro k other same
  exact Key.suffix_injective ((String.append_right_inj _).mp same)

end Ids

section Keys

def functionKeys (index : Nat) (r : FileRecord) : List Key :=
  (r.functions.zipIdx.filter fun (f, _) => f.name != "" && f.name != FunctionInfo.anonymous).map
    fun x => .function index x.2

def classKeys (index : Nat) (r : FileRecord) : List Key :=
  (r.classes.zipIdx.filter fun (c, _) => c.name != "").map fun x => .class index x.2

def partKeys (index : Nat) (r : FileRecord) : List Key :=
  if isImportant r then functionKeys index r ++ classKeys index r else []

def issuesKeys (index : Nat) (r : FileRecord) : List Key :=
  if (graveIssues r).isEmpty then [] else [.issues index]

def fileKeys (index : Nat) (r : FileRecord) : List Key :=
  .file index :: (partKeys index r ++ issuesKeys index r)

def keys (a : Analysis) : List Key :=
  .overview :: (significantFiles a).zipIdx.flatMap (fun (r, index) => fileKeys index r) ++
    (distinct (a.files.map (·.language))).map .language

theorem fileEntries_ids (a : Analysis) (index : Nat) (r : FileRecord) :
    (fileEntries a index r).map (·.id) = (fileKeys index r).map (Key.id a.repoName) := by
  have file : (fileEntry a index r).id = (Key.file index).id a.repoName := rfl
  have function (f : FunctionInfo) (position : Nat) :
      (functionEntry a r index position f).id = (Key.function index position).id a.repoName := rfl
  have «class» (c : ClassInfo) (position : Nat) :
      (classEntry a r index position c).id = (Key.class index position).id a.repoName := rfl
  have issues : (issuesEntry a index r).id = (Key.issues index).id a.repoName := rfl
  unfold fileEntries fileKeys partKeys issuesKeys
  split <;> split <;>
    simp [functionEntries, classEntries, functionKeys, classKeys, file, function, «class», issues,
      Function.comp_def]

theorem entries_ids (a : Analysis) :
    (entries a).map (·.id) = (keys a).map (Key.id a.repoName) := by
  have overview : (overviewEntry a).id = Key.overview.id a.repoName := rfl
  have language (name : String) (count : Nat) :
      (languageEntry a name count).id = (Key.language name).id a.repoName := rfl
  simp [entries, keys, languageCounts, List.map_flatMap, fileEntries_ids, overview, language,
    Function.comp_def]

theorem positions_nodup {α : Type} (p : α × Nat → Bool) {make : Nat → Key}
    (injective : Function.Injective make) (xs : List α) :
    ((xs.zipIdx.filter p).map fun x => make x.2).Nodup := by
  have once : (xs.zipIdx.map Prod.snd).Nodup := by
    rw [List.zipIdx_map_snd]
    exact List.nodup_range'
  have fewer : ((xs.zipIdx.filter p).map Prod.snd).Nodup :=
    once.sublist (List.filter_sublist.map Prod.snd)
  have keys := fewer.map injective
  rwa [List.map_map] at keys

theorem mem_functionKeys {index : Nat} {r : FileRecord} {k : Key} (member : k ∈ functionKeys index r) :
    ∃ position, k = .function index position := by
  obtain ⟨x, _, rfl⟩ := List.mem_map.mp member
  exact ⟨x.2, rfl⟩

theorem mem_classKeys {index : Nat} {r : FileRecord} {k : Key} (member : k ∈ classKeys index r) :
    ∃ position, k = .class index position := by
  obtain ⟨x, _, rfl⟩ := List.mem_map.mp member
  exact ⟨x.2, rfl⟩

theorem mem_partKeys {index : Nat} {r : FileRecord} {k : Key} (member : k ∈ partKeys index r) :
    (∃ position, k = .function index position) ∨ ∃ position, k = .class index position := by
  unfold partKeys at member
  split at member
  · rcases List.mem_append.mp member with function | «class»
    · exact Or.inl (mem_functionKeys function)
    · exact Or.inr (mem_classKeys «class»)
  · simp at member

theorem mem_issuesKeys {index : Nat} {r : FileRecord} {k : Key} (member : k ∈ issuesKeys index r) :
    k = .issues index := by
  unfold issuesKeys at member
  split at member
  · simp at member
  · exact List.mem_singleton.mp member

theorem mem_fileKeys {index : Nat} {r : FileRecord} {k : Key} (member : k ∈ fileKeys index r) :
    k = .file index ∨ (∃ position, k = .function index position) ∨
      (∃ position, k = .class index position) ∨ k = .issues index := by
  rcases List.mem_cons.mp member with file | rest
  · exact Or.inl file
  · rcases List.mem_append.mp rest with part | issues
    · exact Or.inr ((mem_partKeys part).imp_right Or.inl)
    · exact Or.inr (Or.inr (Or.inr (mem_issuesKeys issues)))

theorem partKeys_nodup (index : Nat) (r : FileRecord) : (partKeys index r).Nodup := by
  unfold partKeys
  split
  · refine List.nodup_append.mpr ⟨?_, ?_, ?_⟩
    · exact positions_nodup _ (fun i j same => by cases same; rfl) _
    · exact positions_nodup _ (fun i j same => by cases same; rfl) _
    · rintro k function other «class» rfl
      obtain ⟨_, rfl⟩ := mem_functionKeys function
      obtain ⟨_, same⟩ := mem_classKeys «class»
      cases same
  · exact List.nodup_nil

theorem issuesKeys_nodup (index : Nat) (r : FileRecord) : (issuesKeys index r).Nodup := by
  unfold issuesKeys
  split
  · exact List.nodup_nil
  · exact List.nodup_singleton _

theorem fileKeys_nodup (index : Nat) (r : FileRecord) : (fileKeys index r).Nodup := by
  have apart : ∀ k ∈ partKeys index r, k ≠ .file index ∧ k ≠ .issues index := by
    intro k part
    rcases mem_partKeys part with ⟨_, rfl⟩ | ⟨_, rfl⟩ <;> simp
  refine List.nodup_cons.mpr ⟨?_, List.nodup_append.mpr ⟨partKeys_nodup index r,
    issuesKeys_nodup index r, ?_⟩⟩
  · intro member
    rcases List.mem_append.mp member with part | issues
    · exact (apart _ part).1 rfl
    · exact absurd (mem_issuesKeys issues) (by simp)
  · rintro k part other issues rfl
    exact (apart k part).2 (mem_issuesKeys issues)

def Key.fileIndex? : Key → Option Nat
  | overview => none
  | file index => some index
  | function index _ => some index
  | «class» index _ => some index
  | issues index => some index
  | language _ => none

theorem fileIndex_of_mem {index : Nat} {r : FileRecord} {k : Key} (member : k ∈ fileKeys index r) :
    k.fileIndex? = some index := by
  rcases mem_fileKeys member with rfl | ⟨_, rfl⟩ | ⟨_, rfl⟩ | rfl <;> rfl

theorem keys_nodup (a : Analysis) : (keys a).Nodup := by
  have files : ((significantFiles a).zipIdx.flatMap fun (r, index) => fileKeys index r).Nodup := by
    have numbered : ((significantFiles a).zipIdx.map Prod.snd).Nodup := by
      rw [List.zipIdx_map_snd]
      exact List.nodup_range'
    refine List.nodup_flatMap.mpr ⟨fun x _ => fileKeys_nodup x.2 x.1, ?_⟩
    refine (List.pairwise_map.mp numbered).imp fun differ k first second => differ ?_
    have same := fileIndex_of_mem first
    rw [fileIndex_of_mem second] at same
    exact (Option.some.inj same).symm
  have languages : ((distinct (a.files.map (·.language))).map Key.language).Nodup :=
    (distinct_nodup _).map fun name other same => by cases same; rfl
  have ofFile : ∀ k ∈ (significantFiles a).zipIdx.flatMap (fun (r, index) => fileKeys index r),
      k.fileIndex? ≠ none := by
    intro k member
    obtain ⟨x, _, among⟩ := List.mem_flatMap.mp member
    simp [fileIndex_of_mem among]
  refine List.nodup_append.mpr ⟨List.nodup_cons.mpr ⟨fun member => ofFile _ member rfl, files⟩,
    languages, ?_⟩
  rintro k member other language rfl
  obtain ⟨name, _, rfl⟩ := List.mem_map.mp language
  rcases List.mem_cons.mp member with overview | file
  · cases overview
  · exact ofFile _ file rfl

theorem entries_ids_nodup (a : Analysis) : ((entries a).map (·.id)).Nodup := by
  rw [entries_ids]
  exact (keys_nodup a).map (Key.id_injective a.repoName)

end Keys

end Groundwork.Index
