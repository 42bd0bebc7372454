import Groundwork.Proofs.Repository.Walk

/-!
Paths relative to the top of a repository and their normal form. In the normal form empty parts and `.`
are dropped and each `..` takes back the name before it; a `..` without such a name stays, so a path
leads above the top exactly if its normal form begins with `..`.
-/

namespace Groundwork

namespace Text

theorem splitChars_plain (sep : Char) (cs : List Char) : ∀ piece ∈ splitChars sep cs, sep ∉ piece := by
  induction cs with
  | nil => simp [splitChars]
  | cons c cs ih =>
      obtain ⟨piece, pieces, first, split⟩ := splitChars_cons sep cs c
      rw [first, List.forall_mem_cons] at ih
      rw [split]
      by_cases same : c = sep
      · rw [if_pos same, List.forall_mem_cons, List.forall_mem_cons]
        exact ⟨List.not_mem_nil, ih⟩
      · rw [if_neg same, List.forall_mem_cons]
        refine ⟨?_, ih.2⟩
        rw [List.mem_cons, not_or]
        exact ⟨Ne.symm same, ih.1⟩

theorem split_plain (s : String) : ∀ part ∈ split '/' s, '/' ∉ part.toList := by
  intro part member
  obtain ⟨piece, among, rfl⟩ := List.mem_map.mp member
  rw [String.toList_ofList]
  exact splitChars_plain '/' s.toList piece among

theorem split_ne_nil (s : String) : split '/' s ≠ [] :=
  mt List.map_eq_nil_iff.mp (splitChars_ne_nil '/' s.toList)

theorem join_split (s : String) : join "/" (split '/' s) = s :=
  split_injective '/' (split_join (split_ne_nil s) (split_plain s))

theorem split_join_concat {parts : List String} (plain : ∀ part ∈ parts, '/' ∉ part.toList)
    (s : String) : split '/' (join "/" (parts ++ [s])) = parts ++ split '/' s := by
  have whole : join "/" (parts ++ [s]) = join "/" (parts ++ split '/' s) := by
    cases parts with
    | nil => rw [List.nil_append, List.nil_append, join_split, join, String.intercalate_singleton]
    | cons part parts =>
        rw [join, join, String.intercalate_append_of_ne_nil (List.cons_ne_nil _ _) (List.cons_ne_nil _ _),
          String.intercalate_append_of_ne_nil (List.cons_ne_nil _ _) (split_ne_nil s),
          String.intercalate_singleton, ← join, ← join, join_split]
  rw [whole]
  apply split_join (List.append_ne_nil_of_right_ne_nil parts (split_ne_nil s))
  intro part member
  rcases List.mem_append.mp member with before | own
  · exact plain part before
  · exact split_plain s part own

theorem head?_of_split {s first : String} {others : List String} {c : Char}
    (parts : split '/' s = first :: others) (begins : first.toList.head? = some c) :
    s.toList.head? = some c := by
  cases chars : s.toList with
  | nil =>
      rw [split, chars] at parts
      obtain ⟨rfl, -⟩ := List.cons.inj parts
      simp at begins
  | cons d ds =>
      obtain ⟨piece, pieces, -, cut⟩ := splitChars_cons '/' ds d
      rw [split, chars, cut] at parts
      split at parts
      · obtain ⟨rfl, -⟩ := List.cons.inj parts
        simp at begins
      · obtain ⟨rfl, -⟩ := List.cons.inj parts
        simpa using begins

theorem startsWith_dot {s : String} : startsWith s "." = true ↔ s.toList.head? = some '.' := by
  rw [startsWith, List.isPrefixOf_iff_prefix]
  cases s.toList with
  | nil => simp
  | cons c cs => simp [eq_comm]

theorem splitChars_begins (sep : Char) (cs ds : List Char) :
    (splitChars sep cs).dropLast <+: splitChars sep (cs ++ ds) := by
  induction cs with
  | nil => exact List.nil_prefix
  | cons c cs ih =>
      obtain ⟨piece, pieces, first, split⟩ := splitChars_cons sep cs c
      obtain ⟨longer, others, second, longerSplit⟩ := splitChars_cons sep (cs ++ ds) c
      rw [first, second] at ih
      rw [List.cons_append, split, longerSplit]
      by_cases same : c = sep
      · rw [if_pos same, if_pos same, List.dropLast_cons_of_ne_nil (List.cons_ne_nil piece pieces)]
        exact List.prefix_cons_inj [] |>.mpr ih
      · rw [if_neg same, if_neg same]
        cases pieces with
        | nil => exact List.nil_prefix
        | cons next pieces =>
            rw [List.dropLast_cons_of_ne_nil (List.cons_ne_nil next pieces)] at ih ⊢
            obtain ⟨rfl, inner⟩ := List.cons_prefix_cons.mp ih
            exact List.cons_prefix_cons.mpr ⟨rfl, inner⟩

theorem mem_split_append {s part : String} (member : part ∈ (split '/' s).dropLast) (ending : String) :
    part ∈ split '/' (s ++ ending) := by
  rw [split, ← List.map_dropLast] at member
  rw [split, String.toList_append]
  obtain ⟨piece, among, rfl⟩ := List.mem_map.mp member
  exact List.mem_map_of_mem ((splitChars_begins '/' s.toList ending.toList).subset among)

end Text

namespace FilePath

def IsName (part : String) : Prop := part ≠ "" ∧ part ≠ "." ∧ part ≠ ".."

instance (part : String) : Decidable (IsName part) :=
  inferInstanceAs (Decidable (part ≠ "" ∧ part ≠ "." ∧ part ≠ ".."))

def IsNormal (path : String) : Prop := ∀ part ∈ Text.split '/' path, IsName part

instance (path : String) : Decidable (IsNormal path) :=
  inferInstanceAs (Decidable (∀ part ∈ Text.split '/' path, IsName part))

def pushPart (kept : List String) (part : String) : List String :=
  if part = "" ∨ part = "." then kept
  else if part = ".." then
    match kept with
    | [] => [".."]
    | last :: rest => if last = ".." then ".." :: kept else rest
  else part :: kept

def normalParts (parts : List String) : List String := (parts.foldl pushPart []).reverse

def normalForm (path : String) : String := text ⟨"", normalParts (Text.split '/' path)⟩

def foldersOf (file : String) : List String := (Text.split '/' file).dropLast

def joined (file path : String) : String := Text.join "/" (foldersOf file ++ [path])

theorem foldl_pushPart_names {parts : List String} (plain : ∀ part ∈ parts, part ≠ "." ∧ part ≠ "..")
    (kept : List String) :
    parts.foldl pushPart kept = (parts.filter (· != "")).reverse ++ kept := by
  induction parts generalizing kept with
  | nil => rfl
  | cons part parts ih =>
      obtain ⟨⟨notHere, notUp⟩, later⟩ := List.forall_mem_cons.mp plain
      rw [List.foldl_cons, ih later, pushPart.eq_def]
      by_cases empty : part = ""
      · simp [empty]
      · simp [empty, notHere, notUp]

theorem foldl_pushPart_above (levels count : Nat) :
    (List.replicate levels "..").foldl pushPart (List.replicate count "..") =
      List.replicate (levels + count) ".." := by
  induction levels generalizing count with
  | zero => simp
  | succ levels ih =>
      have more : pushPart (List.replicate count "..") ".." = List.replicate (count + 1) ".." := by
        cases count <;> simp [pushPart, List.replicate_succ]
      rw [List.replicate_succ, List.foldl_cons, more, ih]
      congr 1
      omega

theorem foldl_pushPart_up {kept : List String} (names : ∀ part ∈ kept, IsName part) (levels : Nat) :
    (List.replicate levels "..").foldl pushPart kept =
      List.replicate (levels - kept.length) ".." ++ kept.drop levels := by
  induction kept generalizing levels with
  | nil => simpa using foldl_pushPart_above levels 0
  | cons last rest ih =>
      cases levels with
      | zero => simp
      | succ levels =>
          obtain ⟨⟨-, -, notUp⟩, others⟩ := List.forall_mem_cons.mp names
          have taken : pushPart (last :: rest) ".." = rest := by simp [pushPart, notUp]
          rw [List.replicate_succ, List.foldl_cons, taken, ih others]
          simp

theorem mem_pushPart {kept : List String} {part other : String} (member : other ∈ pushPart kept part) :
    other ∈ kept ∨ other = part ∧ part ≠ "" ∧ part ≠ "." := by
  rw [pushPart.eq_def] at member
  split at member
  · exact Or.inl member
  · rename_i named
    rw [not_or] at named
    split at member
    · rename_i up
      cases kept with
      | nil => exact Or.inr ⟨(List.mem_singleton.mp member).trans up.symm, named⟩
      | cons last rest =>
          dsimp only at member
          split at member
          · rcases List.mem_cons.mp member with new | old
            · exact Or.inr ⟨new.trans up.symm, named⟩
            · exact Or.inl old
          · exact Or.inl (List.mem_cons_of_mem last member)
    · rcases List.mem_cons.mp member with new | old
      · exact Or.inr ⟨new, named⟩
      · exact Or.inl old

theorem mem_normalParts {parts : List String} {part : String} (member : part ∈ normalParts parts) :
    part ∈ parts ∧ part ≠ "" ∧ part ≠ "." := by
  have collected (parts kept : List String) (other : String) (found : other ∈ parts.foldl pushPart kept) :
      other ∈ kept ∨ other ∈ parts ∧ other ≠ "" ∧ other ≠ "." := by
    induction parts generalizing kept with
    | nil => exact Or.inl found
    | cons part parts ih =>
        rcases ih _ found with pushed | ⟨later, named⟩
        · rcases mem_pushPart pushed with old | ⟨rfl, named⟩
          · exact Or.inl old
          · exact Or.inr ⟨List.mem_cons_self, named⟩
        · exact Or.inr ⟨List.mem_cons_of_mem part later, named⟩
  rcases collected parts [] part (List.mem_reverse.mp member) with none | some
  · exact absurd none List.not_mem_nil
  · exact some

theorem text_of_ne_nil {parts : List String} (some : parts ≠ []) :
    text ⟨"", parts⟩ = Text.join "/" parts := by
  simp [text, some]

theorem text_injective {parts others : List String}
    (plain : ∀ part ∈ parts, '/' ∉ part.toList ∧ part ≠ ".")
    (alsoPlain : ∀ part ∈ others, '/' ∉ part.toList ∧ part ≠ ".")
    (same : text ⟨"", parts⟩ = text ⟨"", others⟩) : parts = others := by
  have cut {parts : List String} (plain : ∀ part ∈ parts, '/' ∉ part.toList ∧ part ≠ ".") :
      Text.split '/' (text ⟨"", parts⟩) = if parts = [] then ["."] else parts := by
    split
    · rename_i none
      rw [none]
      rfl
    · rename_i some
      rw [text_of_ne_nil some, Text.split_join some fun part member => (plain part member).1]
  have parted := congrArg (Text.split '/') same
  rw [cut plain, cut alsoPlain] at parted
  split at parted <;> split at parted
  · simp_all
  · exact absurd rfl (alsoPlain "." (by simp [← parted])).2
  · exact absurd rfl (plain "." (by simp [parted])).2
  · exact parted

theorem isName_foldersOf {file : String} (normal : IsNormal file) :
    ∀ part ∈ foldersOf file, IsName part := fun part member =>
  normal part (List.dropLast_subset _ member)

theorem plain_foldersOf (file : String) : ∀ part ∈ foldersOf file, '/' ∉ part.toList :=
  fun part member => Text.split_plain file part (List.dropLast_subset _ member)

theorem normalParts_upDown {folders parts : List String} (names : ∀ part ∈ folders, IsName part)
    (plain : ∀ part ∈ parts, part ≠ "." ∧ part ≠ "..") (levels : Nat) :
    normalParts (folders ++ List.replicate levels ".." ++ parts) =
      folders.take (folders.length - levels) ++
        List.replicate (levels - folders.length) ".." ++ parts.filter (· != "") := by
  have down : folders.foldl pushPart [] = folders.reverse := by
    rw [foldl_pushPart_names fun part member => (names part member).2, List.append_nil]
    congr 1
    exact List.filter_eq_self.mpr fun part member => bne_iff_ne.mpr (names part member).1
  have reversed : ∀ part ∈ folders.reverse, IsName part :=
    fun part member => names part (List.mem_reverse.mp member)
  rw [normalParts, List.foldl_append, List.foldl_append, down, foldl_pushPart_up reversed,
    foldl_pushPart_names plain, List.length_reverse, List.reverse_append, List.reverse_append,
    List.reverse_reverse, List.reverse_replicate, List.drop_reverse, List.reverse_reverse]

theorem normalForm_joined (file path : String) :
    normalForm (joined file path) = text ⟨"", normalParts (foldersOf file ++ Text.split '/' path)⟩ := by
  rw [normalForm, joined, Text.split_join_concat (plain_foldersOf file)]

theorem normalForm_joined_injective {file path other : String}
    (same : normalForm (joined file path) = normalForm (joined file other)) :
    normalParts (foldersOf file ++ Text.split '/' path) =
      normalParts (foldersOf file ++ Text.split '/' other) := by
  have plain (path : String) : ∀ part ∈ normalParts (foldersOf file ++ Text.split '/' path),
      '/' ∉ part.toList ∧ part ≠ "." := by
    intro part member
    obtain ⟨among, -, notPoint⟩ := mem_normalParts member
    refine ⟨?_, notPoint⟩
    rcases List.mem_append.mp among with folder | own
    · exact plain_foldersOf file part folder
    · exact Text.split_plain path part own
  rw [normalForm_joined, normalForm_joined] at same
  exact text_injective (plain path) (plain other) same

theorem not_isNormal_of_folder {folders : List String} {last point : String}
    (plain : ∀ part ∈ folders ++ [last], '/' ∉ part.toList) (within : point ∈ folders)
    (notName : ¬ IsName point) (ending : String) :
    ¬ IsNormal (Text.join "/" (folders ++ [last]) ++ ending) := by
  intro normal
  have parts := Text.split_join (List.append_ne_nil_of_right_ne_nil folders (List.cons_ne_nil last []))
    plain
  refine notName (normal point (Text.mem_split_append ?_ ending))
  rwa [parts, List.dropLast_concat]

theorem ofText_of_normal {file : String} (normal : IsNormal file) :
    ofText file = ⟨"", Text.split '/' file⟩ := by
  have root : rootOf file.toList = "" := by
    cases chars : file.toList with
    | nil => rfl
    | cons c cs =>
        have different : c ≠ '/' := by
          rintro rfl
          have empty : "" ∈ Text.split '/' file := by simp [Text.split, chars, Text.splitChars]
          exact (normal "" empty).1 rfl
        simp [rootOf, different]
  have parts : partsOf file = Text.split '/' file := by
    refine List.filter_eq_self.mpr fun part member => ?_
    simp [(normal part member).1, (normal part member).2.1]
  rw [ofText, root, parts]

end FilePath

end Groundwork
