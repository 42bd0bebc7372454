import Groundwork.Graph.Resolve
import Groundwork.Proofs.Repository.NormalPaths

/-!
Relative specifiers and the files they mean. A specifier points to a place, the normal form of its parts
behind the folders of the importing file. It is resolved by that place as long as `.` and `..` stand at
its beginning only; later ones are taken for names of folders, and the top of the repository is searched
under an empty name.
-/

namespace Groundwork.Graph

open Groundwork.FilePath

/-- The beginning of a specifier: one point for the folder of the file, or a pair of points for each
level above it. -/
inductive Lead where
  | here
  | above (levels : Nat)
  deriving DecidableEq, Repr

namespace Lead

def parts : Lead → List String
  | here => ["."]
  | above levels => List.replicate levels ".."

def levels : Lead → Nat
  | here => 0
  | above levels => levels

def ofParts : List String → Lead × List String
  | "." :: rest => (here, rest)
  | parts => (above (parts.takeWhile (· == "..")).length, parts.dropWhile (· == ".."))

end Lead

def Plain (parts : List String) : Prop := ∀ part ∈ parts, part ≠ "." ∧ part ≠ ".."

instance (parts : List String) : Decidable (Plain parts) :=
  inferInstanceAs (Decidable (∀ part ∈ parts, part ≠ "." ∧ part ≠ ".."))

def LeadsPlainly (specifier : String) : Prop := Plain (Lead.ofParts (Text.split '/' specifier)).2

instance (specifier : String) : Decidable (LeadsPlainly specifier) :=
  inferInstanceAs (Decidable (Plain _))

def targetParts (file specifier : String) : List String :=
  normalParts (foldersOf file ++ Text.split '/' specifier)

namespace Lead

theorem ofParts_of_ne {parts : List String} (other : parts.head? ≠ some ".") :
    ofParts parts =
      (above (parts.takeWhile (· == "..")).length, parts.dropWhile (· == "..")) := by
  unfold ofParts
  split
  · exact absurd rfl other
  · rfl

theorem ofParts_eq (parts : List String) : (ofParts parts).1.parts ++ (ofParts parts).2 = parts := by
  by_cases here : parts.head? = some "."
  · obtain ⟨rest, rfl⟩ := List.head?_eq_some_iff.mp here
    rfl
  · have ups : parts.takeWhile (· == "..") =
        List.replicate (parts.takeWhile (· == "..")).length ".." :=
      List.eq_replicate_length.mpr fun part member => by simpa using List.mem_takeWhile_imp member
    rw [ofParts_of_ne here, Lead.parts, ← ups, List.takeWhile_append_dropWhile]

theorem ofParts_append {names : List String} (plain : Plain names) (lead : Lead) :
    ofParts (lead.parts ++ names) = (lead, names) := by
  cases lead with
  | here => rfl
  | above levels =>
      have ups : ∀ part ∈ List.replicate levels "..", (part == "..") = true := fun part member => by
        simpa using List.eq_of_mem_replicate member
      have other : (List.replicate levels ".." ++ names).head? ≠ some "." := by
        intro point
        rcases List.mem_append.mp (List.mem_of_head? point) with up | name
        · exact absurd (List.eq_of_mem_replicate up) (by decide)
        · exact (plain "." name).1 rfl
      rw [parts, ofParts_of_ne other, List.takeWhile_append_of_pos ups, List.dropWhile_append_of_pos ups]
      cases names with
      | nil => simp
      | cons part names => simp [(plain part List.mem_cons_self).2]

end Lead

theorem locationParts?_eq (folder parts : List String) :
    locationParts? folder parts =
      if folder.length < (Lead.ofParts parts).1.levels then none
      else some (folder.take (folder.length - (Lead.ofParts parts).1.levels) ++
        (Lead.ofParts parts).2) := by
  unfold locationParts?
  split
  · rename_i rest
    have behind : (".." :: rest).drop ((".." :: rest).takeWhile (· == "..")).length =
        (".." :: rest).dropWhile (· == "..") := by
      nth_rewrite 2 [← List.takeWhile_append_dropWhile (p := (· == "..")) (l := ".." :: rest)]
      exact List.drop_left
    dsimp only
    rw [behind]
    rfl
  · simp [Lead.ofParts, Lead.levels]
  · rename_i notUp notHere
    cases parts with
    | nil => simp [Lead.ofParts, Lead.levels]
    | cons part parts =>
        have up : part ≠ ".." := fun same => notUp parts (by rw [same])
        have here : part ≠ "." := fun same => notHere parts (by rw [same])
        rw [Lead.ofParts_of_ne (by simpa using here)]
        simp [Lead.levels, up]

theorem folderParts_eq {file : String} (normal : IsNormal file) : folderParts file = foldersOf file := by
  rw [folderParts, ofText_of_normal normal]
  change (if FilePath.text ⟨"", foldersOf file⟩ == "" || FilePath.text ⟨"", foldersOf file⟩ == "." then
    [] else Text.split '/' (FilePath.text ⟨"", foldersOf file⟩)) = foldersOf file
  by_cases top : foldersOf file = []
  · rw [top]
    rfl
  · have text : FilePath.text ⟨"", foldersOf file⟩ = Text.join "/" (foldersOf file) := by
      simp [FilePath.text, top]
    have apart := Text.split_join top (plain_foldersOf file)
    have named (part : String) (written : Text.join "/" (foldersOf file) = part)
        (alone : Text.split '/' part = [part]) : IsName part := by
      rw [written, alone] at apart
      exact isName_foldersOf normal part (by simp [← apart])
    have notEmpty : Text.join "/" (foldersOf file) ≠ "" := fun same => (named "" same rfl).1 rfl
    have notPoint : Text.join "/" (foldersOf file) ≠ "." := fun same => (named "." same rfl).2.1 rfl
    rw [text, apart, if_neg (by simp [notEmpty, notPoint])]

variable {file specifier : String} {lead : Lead} {names : List String}

theorem targetParts_eq (normal : IsNormal file) (plain : Plain names)
    (written : Text.split '/' specifier = lead.parts ++ names) :
    targetParts file specifier =
      (foldersOf file).take ((foldersOf file).length - lead.levels) ++
        List.replicate (lead.levels - (foldersOf file).length) ".." ++ names.filter (· != "") := by
  have levels : normalParts (foldersOf file ++ (lead.parts ++ names)) =
      normalParts (foldersOf file ++ List.replicate lead.levels ".." ++ names) := by
    cases lead with
    | here => simp [normalParts, Lead.parts, Lead.levels, pushPart]
    | above levels => rw [Lead.parts, Lead.levels, List.append_assoc]
  rw [targetParts, written, levels, normalParts_upDown (isName_foldersOf normal) plain]

theorem head?_targetParts (normal : IsNormal file) (plain : Plain names)
    (written : Text.split '/' specifier = lead.parts ++ names) :
    (targetParts file specifier).head? = some ".." ↔ (foldersOf file).length < lead.levels := by
  rw [targetParts_eq normal plain written]
  by_cases climbs : (foldersOf file).length < lead.levels
  · obtain ⟨excess, levels⟩ := Nat.exists_eq_add_of_lt climbs
    have none : (foldersOf file).length - lead.levels = 0 := by omega
    have some : lead.levels - (foldersOf file).length = excess + 1 := by omega
    rw [none, some]
    simp [List.replicate_succ, climbs]
  · have none : lead.levels - (foldersOf file).length = 0 := by omega
    rw [none]
    refine iff_of_false (fun begins => ?_) climbs
    rcases List.mem_append.mp (List.mem_of_head? begins) with above | below
    · rw [List.replicate_zero, List.append_nil] at above
      exact (isName_foldersOf normal _ (List.mem_of_mem_take above)).2.2 rfl
    · exact (plain _ (List.mem_of_mem_filter below)).2 rfl

theorem resolve?_eq (normal : IsNormal file) (relative : Text.startsWith specifier "." = true)
    (plain : Plain names) (written : Text.split '/' specifier = lead.parts ++ names)
    (known : List String) :
    resolve? known file specifier =
      if (foldersOf file).length < lead.levels then none
      else (candidates (Text.join "/" (targetParts file specifier))).find? known.contains := by
  have location := locationParts?_eq (foldersOf file) (Text.split '/' specifier)
  rw [written, Lead.ofParts_append plain] at location
  rw [resolve?, if_neg (by simp [relative]), folderParts_eq normal, written, location]
  by_cases climbs : (foldersOf file).length < lead.levels
  · rw [if_pos climbs, if_pos climbs]
    rfl
  · have inside : lead.levels - (foldersOf file).length = 0 := by omega
    have taken : ((foldersOf file).take ((foldersOf file).length - lead.levels)).filter (· != "") =
        (foldersOf file).take ((foldersOf file).length - lead.levels) :=
      List.filter_eq_self.mpr fun part member =>
        bne_iff_ne.mpr (isName_foldersOf normal part (List.mem_of_mem_take member)).1
    rw [if_neg climbs, if_neg climbs, targetParts_eq normal plain written, inside]
    simp [taken]

theorem candidates_eq (place : String) :
    candidates place =
      [place ++ ".ts", place ++ "/index.ts", place ++ ".tsx", place ++ "/index.tsx",
        place ++ ".js", place ++ "/index.js", place ++ ".jsx", place ++ "/index.jsx",
        place ++ ".json", place ++ "/index.json"] := by
  simp [candidates, resolveSuffixes, String.append_assoc]

/-- A specifier that begins with a point and has `.` and `..` at its beginning only finds nothing if it
climbs above the top, and else the first known file in a fixed order of endings behind the normal form of
the place it names. One that does not begin with a point finds nothing. -/
theorem resolve?_inOrder {file : String} (normal : IsNormal file) (known : List String)
    (specifier : String) :
    (Text.startsWith specifier "." = true → ∀ (lead : Lead) (names : List String),
      Text.split '/' specifier = lead.parts ++ names → Plain names → (∃ part ∈ names, part ≠ "") →
        resolve? known file specifier =
          if (foldersOf file).length < lead.levels then none
          else
            let place := normalForm (joined file specifier)
            [place ++ ".ts", place ++ "/index.ts", place ++ ".tsx", place ++ "/index.tsx",
              place ++ ".js", place ++ "/index.js", place ++ ".jsx", place ++ "/index.jsx",
              place ++ ".json", place ++ "/index.json"].find? (· ∈ known)) ∧
      (Text.startsWith specifier "." = false → resolve? known file specifier = none) := by
  constructor
  · intro relative lead names written plain named
    obtain ⟨name, member, some⟩ := named
    have kept : name ∈ targetParts file specifier := by
      rw [targetParts_eq normal plain written, List.mem_append, List.mem_filter]
      exact Or.inr ⟨member, bne_iff_ne.mpr some⟩
    have place : normalForm (joined file specifier) = Text.join "/" (targetParts file specifier) := by
      rw [normalForm_joined, ← targetParts, text_of_ne_nil (List.ne_nil_of_mem kept)]
    have among : known.contains = fun path => decide (path ∈ known) :=
      funext fun path => List.contains_eq_mem path known
    rw [resolve?_eq normal relative plain written, place, candidates_eq, among]
  · intro notRelative
    rw [resolve?, if_pos (by simp [notRelative])]

/-- A doubled slash among the names changes nothing, and one level more than there are folders is too
many. -/
theorem resolve?_inOrder_cart :
    IsNormal "src/app/cart.ts" ∧ Plain ["lib", "", "x"] ∧
      resolve? ["src/x.ts", "lib/x.jsx", "lib/x/index.js"] "src/app/cart.ts" "../../lib//x" =
        some "lib/x/index.js" ∧
      resolve? ["lib/x.ts"] "src/app/cart.ts" "../../../lib//x" = none ∧
      resolve? ["lib/x.ts"] "src/app/cart.ts" "lib/x" = none := by
  have normal : IsNormal "src/app/cart.ts" := by decide +kernel
  have plain : Plain ["lib", "", "x"] := by decide
  refine ⟨normal, plain, ?_, ?_, ?_⟩
  · rw [(resolve?_inOrder normal _ _).1 (by decide) (.above 2) ["lib", "", "x"] (by decide) plain
      ⟨"lib", by decide, by decide⟩]
    decide +kernel
  · rw [(resolve?_inOrder normal _ _).1 (by decide) (.above 3) ["lib", "", "x"] (by decide) plain
      ⟨"lib", by decide, by decide⟩]
    decide +kernel
  · exact (resolve?_inOrder normal _ _).2 (by decide)

theorem resolve?_known {known : List String} {file specifier target : String}
    (resolved : resolve? known file specifier = some target) : target ∈ known := by
  unfold resolve? at resolved
  split at resolved
  · simp at resolved
  · obtain ⟨parts, _, found⟩ := Option.bind_eq_some_iff.mp resolved
    simpa using List.find?_some found

theorem exists_ending {known : List String} {file specifier path : String}
    (found : resolve? known file specifier = some path) :
    ∃ parts, locationParts? (folderParts file) (Text.split '/' specifier) = some parts ∧
      ∃ ending, path = Text.join "/" (parts.filter (· != "")) ++ ending := by
  rw [resolve?] at found
  split at found
  · simp at found
  · obtain ⟨parts, location, found⟩ := Option.bind_eq_some_iff.mp found
    refine ⟨parts, location, ?_⟩
    obtain ⟨suffix, -, tried⟩ := List.mem_flatMap.mp (List.mem_of_find?_eq_some found)
    simp only [List.mem_cons, List.not_mem_nil, or_false] at tried
    rcases tried with rfl | rfl
    · exact ⟨suffix, rfl⟩
    · exact ⟨"/index" ++ suffix, String.append_assoc ..⟩

theorem plain_folderParts (file : String) : ∀ part ∈ folderParts file, '/' ∉ part.toList := by
  rw [folderParts]
  split
  · exact List.forall_mem_nil _
  · exact Text.split_plain _

theorem mem_of_locationParts? {folder parts location : List String} {part : String}
    (located : locationParts? folder parts = some location) (member : part ∈ location) :
    part ∈ folder ∨ part ∈ parts := by
  rw [locationParts?_eq] at located
  split at located
  · simp at located
  · obtain rfl := Option.some.inj located
    rcases List.mem_append.mp member with above | rest
    · exact Or.inl (List.mem_of_mem_take above)
    · rw [← Lead.ofParts_eq parts]
      exact Or.inr (List.mem_append_right _ rest)

theorem exists_point {folder parts location : List String} {last : String}
    (located : locationParts? folder parts = some location) (detour : ¬ Plain (Lead.ofParts parts).2)
    (ends : parts.getLastD "" = last) (named : IsName last) :
    ∃ folders, location.filter (· != "") = folders ++ [last] ∧ ∃ point ∈ folders, ¬ IsName point := by
  obtain ⟨point, inRest, isPoint⟩ : ∃ point ∈ (Lead.ofParts parts).2,
      ¬ (point ≠ "." ∧ point ≠ "..") := by
    simpa [Plain] using detour
  have notEmpty : point ≠ "" := by
    rintro rfl
    exact isPoint (by decide)
  obtain ⟨before, final, cut⟩ : ∃ before final, (Lead.ofParts parts).2 = before ++ [final] :=
    ⟨_, _, (List.dropLast_append_getLast (List.ne_nil_of_mem inRest)).symm⟩
  obtain rfl : final = last := by
    rw [← Lead.ofParts_eq parts, cut, ← List.append_assoc, List.getLastD_concat] at ends
    exact ends
  have inside : point ∈ before := by
    rw [cut] at inRest
    rcases List.mem_append.mp inRest with earlier | isLast
    · exact earlier
    · exact absurd (List.mem_singleton.mp isLast ▸ named.2) isPoint
  rw [locationParts?_eq, cut] at located
  split at located
  · simp at located
  · obtain rfl := Option.some.inj located
    have keeps : [final].filter (· != "") = [final] := by simp [named.1]
    rw [← List.append_assoc, List.filter_append, keeps]
    have passed := List.mem_append_right (folder.take (folder.length - (Lead.ofParts parts).1.levels))
      inside
    exact ⟨_, rfl, point, List.mem_filter.mpr ⟨passed, bne_iff_ne.mpr notEmpty⟩,
      fun name => isPoint name.2⟩

theorem resolve?_of_not_leadsPlainly {known : List String} {file specifier : String}
    (normal : ∀ path ∈ known, IsNormal path) (detour : ¬ LeadsPlainly specifier)
    (named : IsName ((Text.split '/' specifier).getLastD "")) : resolve? known file specifier = none := by
  rw [Option.eq_none_iff_forall_ne_some]
  intro path found
  obtain ⟨parts, located, ending, rfl⟩ := exists_ending found
  obtain ⟨folders, through, point, within, notName⟩ := exists_point located detour rfl named
  have isNormal := normal _ (resolve?_known found)
  rw [through] at isNormal
  refine not_isNormal_of_folder (fun part member => ?_) within notName ending isNormal
  rw [← through] at member
  rcases mem_of_locationParts? located (List.mem_of_mem_filter member) with folder | own
  · exact plain_folderParts file part folder
  · exact Text.split_plain specifier part own

theorem resolve?_byTarget {file specifier : String} (normal : IsNormal file)
    (relative : Text.startsWith specifier "." = true) (plainly : LeadsPlainly specifier)
    (known : List String) :
    resolve? known file specifier =
      if (targetParts file specifier).head? = some ".." then none
      else (candidates (Text.join "/" (targetParts file specifier))).find? known.contains := by
  have written := (Lead.ofParts_eq (Text.split '/' specifier)).symm
  rw [resolve?_eq normal relative plainly written]
  exact if_congr (head?_targetParts normal plainly written).symm rfl rfl

/-- Two specifiers that point to one place are resolved to one file if both have `.` and `..` at their
beginning only. One that has them later and ends in a name finds no file, wherever it points to. -/
theorem resolve?_sameTarget {file : String} (normal : IsNormal file) (known : List String) :
    (∀ specifier other, Text.startsWith specifier "." = true → Text.startsWith other "." = true →
      LeadsPlainly specifier → LeadsPlainly other →
      normalForm (joined file specifier) = normalForm (joined file other) →
        resolve? known file specifier = resolve? known file other) ∧
      ∀ specifier, (∀ path ∈ known, IsNormal path) → ¬ LeadsPlainly specifier →
        IsName ((Text.split '/' specifier).getLastD "") → resolve? known file specifier = none := by
  constructor
  · intro specifier other relative alsoRelative plainly alsoPlainly same
    have parts : targetParts file specifier = targetParts file other :=
      normalForm_joined_injective same
    rw [resolve?_byTarget normal relative plainly, resolve?_byTarget normal alsoRelative alsoPlainly,
      parts]
  · intro specifier inNormalForm detour named
    exact resolve?_of_not_leadsPlainly inNormalForm detour named

theorem resolve?_sameTarget_cart :
    IsNormal "src/app/cart.ts" ∧ (∀ path ∈ ["src/app/x.ts"], IsNormal path) ∧
      resolve? ["src/app/x.ts"] "src/app/cart.ts" "../app/x" =
        resolve? ["src/app/x.ts"] "src/app/cart.ts" "./x" ∧
      ¬ LeadsPlainly "./../app/x" ∧
      resolve? ["src/app/x.ts"] "src/app/cart.ts" "./../app/x" = none := by
  have normal : IsNormal "src/app/cart.ts" := by decide +kernel
  have inNormalForm : ∀ path ∈ ["src/app/x.ts"], IsNormal path := by decide +kernel
  have detour : ¬ LeadsPlainly "./../app/x" := by decide +kernel
  obtain ⟨alike, lost⟩ := resolve?_sameTarget normal ["src/app/x.ts"]
  refine ⟨normal, inNormalForm, ?_, detour, ?_⟩
  · exact alike "../app/x" "./x" (by decide) (by decide) (by decide +kernel) (by decide +kernel)
      (by decide +kernel)
  · exact lost "./../app/x" inNormalForm detour (by decide +kernel)

theorem detour_lost :
    IsNormal "src/app/cart.ts" ∧
      normalForm (joined "src/app/cart.ts" "./../lib/x") = "src/lib/x" ∧
      normalForm (joined "src/app/cart.ts" "../lib/x") = "src/lib/x" ∧
      resolve? ["src/lib/x.ts"] "src/app/cart.ts" "./../lib/x" = none ∧
      resolve? ["src/lib/x.ts"] "src/app/cart.ts" "../lib/x" = some "src/lib/x.ts" := by
  decide +kernel

def upward : Nat → String
  | 0 => "."
  | levels + 1 => Text.join "/" (List.replicate (levels + 1) "..")

def Lead.upward : Nat → Lead
  | 0 => .here
  | levels + 1 => .above (levels + 1)

theorem Lead.levels_upward (levels : Nat) : (Lead.upward levels).levels = levels := by
  cases levels <;> rfl

theorem split_upward (levels : Nat) :
    Text.split '/' (upward levels) = (Lead.upward levels).parts ++ [] := by
  cases levels with
  | zero => decide
  | succ levels =>
      rw [upward, List.append_nil]
      refine Text.split_join (List.cons_ne_nil _ _) fun part member => ?_
      rw [List.eq_of_mem_replicate member]
      decide

theorem startsWith_upward (levels : Nat) : Text.startsWith (upward levels) "." = true := by
  rw [Text.startsWith_dot]
  cases levels with
  | zero => decide
  | succ levels =>
      have parts := split_upward (levels + 1)
      rw [Lead.upward, Lead.parts, List.replicate_succ, List.cons_append] at parts
      exact Text.head?_of_split parts (by decide)

def folderAbove (file : String) (levels : Nat) : String :=
  Text.join "/" ((foldersOf file).take ((foldersOf file).length - levels))

theorem resolve?_upward {file : String} (normal : IsNormal file) {levels : Nat}
    (within : levels ≤ (foldersOf file).length) (known : List String) :
    resolve? known file (upward levels) =
      (candidates (folderAbove file levels)).find? known.contains := by
  have plain : Plain [] := List.forall_mem_nil _
  have inside : levels - (foldersOf file).length = 0 := by omega
  have climbs : ¬ (foldersOf file).length < (Lead.upward levels).levels := by
    rw [Lead.levels_upward]
    omega
  rw [resolve?_eq normal (startsWith_upward levels) plain (split_upward levels), if_neg climbs,
    targetParts_eq normal plain (split_upward levels), Lead.levels_upward, inside, folderAbove]
  simp

/-- The steps to a folder find its index file if it is not the top of the repository. At the top they
find no path in normal form, unless it is a bare ending. -/
theorem resolve?_folderIndex {file : String} (normal : IsNormal file) {levels : Nat}
    (within : levels ≤ (foldersOf file).length) (known : List String) :
    (levels < (foldersOf file).length → folderAbove file levels ++ "/index.ts" ∈ known →
      folderAbove file levels ++ ".ts" ∉ known →
        resolve? known file (upward levels) = some (folderAbove file levels ++ "/index.ts")) ∧
      (levels = (foldersOf file).length → ∀ path, IsNormal path → path ∉ resolveSuffixes →
        resolve? known file (upward levels) ≠ some path) := by
  rw [resolve?_upward normal within]
  constructor
  · intro _ isKnown unknown
    rw [candidates_eq, List.find?_cons_of_neg (by simpa using unknown),
      List.find?_cons_of_pos (by simpa using isKnown)]
  · rintro rfl path inNormalForm named found
    rw [folderAbove, Nat.sub_self, List.take_zero] at found
    obtain ⟨suffix, among, behind⟩ := List.mem_flatMap.mp (List.mem_of_find?_eq_some found)
    have rooted : ∀ suffix ∈ resolveSuffixes, ¬ IsNormal (Text.join "/" [] ++ "/index" ++ suffix) := by
      decide +kernel
    simp only [List.mem_cons, List.not_mem_nil, or_false] at behind
    rcases behind with rfl | rfl
    · exact named (by simpa [Text.join] using among)
    · exact rooted suffix among inNormalForm

theorem resolve?_folderIndex_cart :
    IsNormal "src/app/cart.ts" ∧ 1 < (foldersOf "src/app/cart.ts").length ∧
      resolve? ["src/index.ts", "index.ts"] "src/app/cart.ts" ".." = some "src/index.ts" ∧
      resolve? ["src/index.ts", "index.ts"] "src/app/cart.ts" "../.." ≠ some "index.ts" := by
  have normal : IsNormal "src/app/cart.ts" := by decide +kernel
  have within : 1 < (foldersOf "src/app/cart.ts").length := by decide +kernel
  refine ⟨normal, within, ?_, ?_⟩
  · exact (resolve?_folderIndex normal within.le ["src/index.ts", "index.ts"]).1 within
      (by decide +kernel) (by decide +kernel)
  · exact (resolve?_folderIndex normal (by decide +kernel) ["src/index.ts", "index.ts"]).2
      (by decide +kernel : 2 = (foldersOf "src/app/cart.ts").length) "index.ts" (by decide +kernel)
      (by decide)

theorem topIndex_unfound :
    IsNormal "src/cart.ts" ∧ folderAbove "src/cart.ts" 1 = "" ∧ upward 1 = ".." ∧
      resolve? ["index.ts"] "src/cart.ts" ".." = none := by
  decide +kernel

end Groundwork.Graph
