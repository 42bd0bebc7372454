import Groundwork.Proofs.Text.Pieces
import Groundwork.Repository.Survey

/-!
When trimming a location once more does not change its namespace. What trimming takes off is an ending
`.git`, slashes and blanks. The namespace is the same without it only where the last two parts happen
to repeat it.
-/

namespace Groundwork.Index

open Text

def label (location : String) : String := ownerPart location ++ "-" ++ lastPart location

theorem namespaceOf_eq (url branch : String) :
    namespaceOf url branch = label (trimLocation url) ++ "-" ++ branch := rfl

theorem parts_of_slash {location : String} {start piece : List Char}
    (whole : location.toList = start ++ '/' :: piece) (outside : '/' ∉ piece) :
    ownerPart location = lastPart (.ofList start) ∧ lastPart location = .ofList piece := by
  have pieces : split '/' location = split '/' (.ofList start) ++ [String.ofList piece] := by
    rw [split, split, whole, String.toList_ofList, splitChars_append, splitChars_of_notMem outside,
      List.map_append]
    rfl
  have before : split '/' (.ofList start) ≠ [] := by
    rw [split, ne_eq, List.map_eq_nil_iff]
    exact splitChars_ne_nil _ _
  refine ⟨?_, by rw [lastPart, pieces, List.getLastD_concat]⟩
  rw [ownerPart, pieces, List.reverse_append, lastPart]
  rcases List.eq_nil_or_concat (split '/' (.ofList start)) with none | ⟨rest, owner, whole⟩
  · exact absurd none before
  · rw [whole, List.concat_eq_append, List.getLastD_concat, List.reverse_append]
    rfl

theorem parts_of_notMem {location : String} (none : '/' ∉ location.toList) :
    ownerPart location = "local" ∧ lastPart location = location := by
  have pieces : split '/' location = [location] := by
    rw [split, splitChars_of_notMem none, List.map_cons, List.map_nil, String.ofList_toList]
  exact ⟨by rw [ownerPart, pieces]; rfl, by rw [lastPart, pieces]; rfl⟩

theorem parts_append {location : String} {start tail : List Char}
    (whole : location.toList = start ++ tail) (outside : '/' ∉ tail) :
    ownerPart location = ownerPart (.ofList start) ∧
      (lastPart location).toList = (lastPart (.ofList start)).toList ++ tail := by
  rcases exists_lastPiece '/' start with none | ⟨before, piece, rfl, outsidePiece⟩
  · have noneStart : '/' ∉ (String.ofList start).toList := by rwa [String.toList_ofList]
    have noneWhole : '/' ∉ location.toList := by
      rw [whole, List.mem_append, not_or]
      exact ⟨none, outside⟩
    rw [(parts_of_notMem noneStart).1, (parts_of_notMem noneStart).2, (parts_of_notMem noneWhole).1,
      (parts_of_notMem noneWhole).2, whole, String.toList_ofList]
    exact ⟨rfl, rfl⟩
  · have outsideBoth : '/' ∉ piece ++ tail := by
      rw [List.mem_append, not_or]
      exact ⟨outsidePiece, outside⟩
    rw [List.append_assoc, List.cons_append] at whole
    have partsStart := parts_of_slash (String.toList_ofList (l := before ++ '/' :: piece)) outsidePiece
    have partsWhole := parts_of_slash whole outsideBoth
    rw [partsStart.1, partsStart.2, partsWhole.1, partsWhole.2]
    simp

/-- A text that can be moved past its surroundings repeats them. -/
theorem rotation_iff {x : Char} {ending blanks owner name : List Char} (notEnding : x ∉ ending)
    (notBlanks : x ∉ blanks) :
    name ++ ending ++ x :: blanks = owner ++ x :: name ↔
      owner = blanks ++ ending ∧
        ∃ n, name = (List.replicate n (blanks ++ ending ++ [x])).flatten ++ blanks := by
  constructor
  · intro same
    have notOwner : x ∉ owner := by
      have counts := congrArg (List.count x) same
      simp only [List.count_append, List.count_cons_self, List.count_eq_zero.mpr notEnding,
        List.count_eq_zero.mpr notBlanks] at counts
      exact List.count_eq_zero.mp (by omega)
    -- The owner has no separator, so a name with one starts with the owner and goes on with a
    -- shorter name of the same kind.
    induction length : name.length using Nat.strongRecOn generalizing name with
    | ind _ ih =>
        by_cases member : x ∈ name
        · obtain ⟨start, rest, rfl, outside⟩ := List.eq_append_cons_of_mem member
          rw [List.append_assoc, List.append_assoc, List.cons_append, cut_eq_iff outside notOwner]
            at same
          obtain ⟨rfl, same⟩ := same
          have shorter : rest.length < (start ++ x :: rest).length := by simp; omega
          obtain ⟨ownerIs, n, restIs⟩ :=
            ih _ (length ▸ shorter) (by rw [List.append_assoc]; exact same) rfl
          refine ⟨ownerIs, n + 1, ?_⟩
          rw [List.replicate_succ, List.flatten_cons, ownerIs]
          nth_rewrite 1 [restIs]
          simp
        · have outside : x ∉ name ++ ending := by
            rw [List.mem_append, not_or]
            exact ⟨member, notEnding⟩
          obtain ⟨ownerIs, blanksIs⟩ := (cut_eq_iff outside notOwner).mp same
          exact ⟨by rw [← ownerIs, blanksIs], 0, by simp [blanksIs]⟩
  · rintro ⟨rfl, n, rfl⟩
    have shift : (List.replicate n (blanks ++ ending ++ [x])).flatten ++ (blanks ++ ending ++ [x]) =
        (blanks ++ ending ++ [x]) ++ (List.replicate n (blanks ++ ending ++ [x])).flatten := by
      rw [← List.flatten_cons, ← List.replicate_succ, List.replicate_succ', List.flatten_append]
      simp
    have shifted := congrArg (· ++ blanks) shift
    simpa using shifted

structure TakenOff (location : String) (ending slashes blanks : List Char) : Prop where
  whole : location.toList = (trimLocation location).toList ++ ending ++ slashes ++ blanks
  endingIs : ending = [] ∨ ending = ".git".toList
  slashesAre : slashes = List.replicate slashes.length '/'
  blanksAre : ∀ c ∈ blanks, isBlank c = true

theorem exists_takenOff {location : String}
    (kept : location.toList.dropWhile isBlank = location.toList) :
    ∃ ending slashes blanks, TakenOff location ending slashes blanks := by
  have stripped : (strip location).toList = trimEnd isBlank location.toList := by
    rw [strip, String.toList_ofList, trim, kept]
  obtain ⟨blanks, whole, areBlank⟩ := trimEnd_append isBlank location.toList
  obtain ⟨slashes, inner, areSlashes⟩ := trimEnd_append (· == '/') (strip location).toList
  have slashesIs : slashes = List.replicate slashes.length '/' :=
    List.eq_replicate_iff.mpr ⟨rfl, fun c member => by simpa using areSlashes c member⟩
  rw [← stripped, inner] at whole
  by_cases ends : endsWith (.ofList (trimEnd (· == '/') (strip location).toList)) ".git" = true
  · have trimmed : trimLocation location =
        dropEnd 4 (.ofList (trimEnd (· == '/') (strip location).toList)) := by
      rw [trimLocation]
      exact if_pos ends
    have parts := dropEnd_append (n := 4) rfl ends
    rw [String.toList_ofList, ← trimmed] at parts
    rw [parts] at whole
    exact ⟨_, slashes, blanks, whole, Or.inr rfl, slashesIs, areBlank⟩
  · have trimmed : trimLocation location =
        .ofList (trimEnd (· == '/') (strip location).toList) := by
      rw [trimLocation]
      exact if_neg ends
    refine ⟨[], slashes, blanks, ?_, Or.inl rfl, slashesIs, areBlank⟩
    rw [trimmed, String.toList_ofList, List.append_nil]
    exact whole

structure Repeats (location : String) (ending slashes blanks : List Char) : Prop
    extends TakenOff location ending slashes blanks where
  parts : (slashes.length = 1 ∧ (ownerPart (trimLocation location)).toList = blanks ++ ending ∧
      ∃ n, (lastPart (trimLocation location)).toList =
        (List.replicate n (blanks ++ ending ++ ['-'])).flatten ++ blanks) ∨
    (2 ≤ slashes.length ∧ ownerPart (trimLocation location) = "" ∧
      (lastPart (trimLocation location)).toList = blanks)

theorem TakenOff.outside {location : String} {ending slashes blanks : List Char}
    (taken : TakenOff location ending slashes blanks) {c : Char} (notEnding : c ∉ ".git".toList)
    (notBlank : isBlank c = false) : c ∉ ending ∧ c ∉ blanks := by
  constructor
  · rcases taken.endingIs with rfl | rfl
    · exact List.not_mem_nil
    · exact notEnding
  · intro member
    simp [taken.blanksAre c member] at notBlank

theorem TakenOff.noSlash {location : String} {ending slashes blanks : List Char}
    (taken : TakenOff location ending slashes blanks) : '/' ∉ ending ∧ '/' ∉ blanks :=
  taken.outside (by decide) (by decide)

theorem TakenOff.noneParts {location : String} {ending slashes blanks : List Char}
    (taken : TakenOff location ending slashes blanks) (count : slashes.length = 0) :
    ownerPart location = ownerPart (trimLocation location) ∧
      (lastPart location).toList = (lastPart (trimLocation location)).toList ++ (ending ++ blanks) := by
  have whole := taken.whole
  rw [taken.slashesAre, count, List.replicate_zero, List.append_nil, List.append_assoc] at whole
  have outside : '/' ∉ ending ++ blanks := by simp [taken.noSlash]
  obtain ⟨owner, last⟩ := parts_append whole outside
  rw [String.ofList_toList] at owner last
  exact ⟨owner, last⟩

theorem TakenOff.oneParts {location : String} {ending slashes blanks : List Char}
    (taken : TakenOff location ending slashes blanks) (count : slashes.length = 1) :
    (ownerPart location).toList = (lastPart (trimLocation location)).toList ++ ending ∧
      (lastPart location).toList = blanks := by
  have whole := taken.whole
  rw [taken.slashesAre, count, List.replicate_one, List.append_assoc _ ['/'], List.singleton_append]
    at whole
  obtain ⟨owner, last⟩ := parts_of_slash whole taken.noSlash.2
  obtain ⟨_, inner⟩ := parts_append String.toList_ofList taken.noSlash.1
  rw [String.ofList_toList] at inner
  exact ⟨by rw [owner, inner], by rw [last, String.toList_ofList]⟩

theorem TakenOff.moreParts {location : String} {ending slashes blanks : List Char}
    (taken : TakenOff location ending slashes blanks) {n : Nat} (count : slashes.length = n + 2) :
    (ownerPart location).toList = [] ∧ (lastPart location).toList = blanks := by
  have whole := taken.whole
  rw [taken.slashesAre, count, List.replicate_succ', ← List.append_assoc, List.append_assoc _ ['/'],
    List.singleton_append] at whole
  obtain ⟨owner, last⟩ := parts_of_slash whole taken.noSlash.2
  have inner : (trimLocation location).toList ++ ending ++ List.replicate (n + 1) '/' =
      ((trimLocation location).toList ++ ending ++ List.replicate n '/') ++ '/' :: [] := by
    rw [List.replicate_succ', List.append_assoc _ _ ['/']]
  have empty := (parts_of_slash (String.toList_ofList.trans inner) List.not_mem_nil).2
  exact ⟨by rw [owner, empty, String.toList_ofList], by rw [last, String.toList_ofList]⟩

theorem leading_eq_iff {x : Char} {a b c : List Char} (outside : x ∉ b) :
    x :: b = a ++ x :: c ↔ a = [] ∧ c = b := by
  cases a with
  | nil => simp [eq_comm]
  | cons y rest =>
      refine iff_of_false ?_ (by simp)
      intro same
      rw [List.cons_append, List.cons.injEq] at same
      exact outside (by simp [same.2])

theorem label_toList (location : String) : (label location).toList =
    (ownerPart location).toList ++ '-' :: (lastPart location).toList := by
  simp [label]

theorem label_eq_iff {location : String} {ending slashes blanks : List Char}
    (taken : TakenOff location ending slashes blanks) (some : trimLocation location ≠ location) :
    label location = label (trimLocation location) ↔ Repeats location ending slashes blanks := by
  have repeats : Repeats location ending slashes blanks ↔ _ :=
    ⟨fun repeated => repeated.parts, fun parts => ⟨taken, parts⟩⟩
  rw [repeats, ← String.toList_inj, label_toList, label_toList]
  have ⟨hyphenNotEnding, hyphenNotBlanks⟩ := taken.outside (c := '-') (by decide) (by decide)
  match count : slashes.length with
  | 0 =>
      obtain ⟨owner, last⟩ := taken.noneParts count
      have notEmpty : ending ++ blanks ≠ [] := by
        intro empty
        have whole := taken.whole
        rw [List.eq_nil_of_length_eq_zero count, List.append_nil, List.append_assoc, empty,
          List.append_nil, String.toList_inj] at whole
        exact some whole.symm
      rw [owner, last]
      simpa using notEmpty
  | 1 =>
      obtain ⟨owner, last⟩ := taken.oneParts count
      rw [owner, last, rotation_iff hyphenNotEnding hyphenNotBlanks]
      simp
  | n + 2 =>
      obtain ⟨owner, last⟩ := taken.moreParts count
      rw [owner, last, List.nil_append, leading_eq_iff hyphenNotBlanks, String.toList_eq_nil_iff]
      simp

def Coincides (location : String) : Prop :=
  ∃ ending slashes blanks, Repeats location ending slashes blanks

/-- The namespace made again from a location that has lost an ending `.git` is the same exactly when
nothing is left to be trimmed, or when the parts happen to repeat what is left. -/
theorem namespaceOf_trimUrl_iff {url : String} (stripped : strip url = url) (branch : String) :
    namespaceOf (Analysis.trimUrl url) branch = namespaceOf url branch ↔
      endsWith url ".git" = false ∨
        trimLocation (Analysis.trimUrl url) = Analysis.trimUrl url ∨
          Coincides (Analysis.trimUrl url) := by
  cases ends : endsWith url ".git" with
  | false =>
      have same : Analysis.trimUrl url = url := by simp [Analysis.trimUrl, ends]
      simp [same]
  | true =>
      have trimmed : Analysis.trimUrl url = dropEnd 4 url := by simp [Analysis.trimUrl, ends]
      have whole := dropEnd_append (n := 4) rfl ends
      rw [← trimmed] at whole
      have trimmedUrl : trimLocation url = Analysis.trimUrl url := by
        have gitEnding : ".git".toList = ['.', 'g', 'i'] ++ ['t'] := by decide
        have noSlash : trimEnd (· == '/') url.toList = url.toList := by
          rw [whole, gitEnding, ← List.append_assoc]
          exact trimEnd_concat _ rfl
        rw [trimLocation, stripped, noSlash, String.ofList_toList]
        simp [ends, trimmed]
      have kept : (Analysis.trimUrl url).toList.dropWhile isBlank = (Analysis.trimUrl url).toList := by
        have trimmedBlanks : trim isBlank url.toList = url.toList := by
          rw [← String.toList_ofList (l := trim isBlank url.toList), ← strip, stripped]
        refine dropWhile_of_append ".git".toList ?_
        rw [← whole]
        exact dropWhile_of_trim_eq trimmedBlanks
      rw [namespaceOf_eq, namespaceOf_eq, trimmedUrl, ← String.toList_inj]
      simp only [String.toList_append, List.append_assoc, List.append_cancel_right_eq,
        String.toList_inj, Bool.true_eq_false, false_or]
      by_cases same : trimLocation (Analysis.trimUrl url) = Analysis.trimUrl url
      · simp [same]
      · rw [eq_comm, or_iff_right same]
        constructor
        · intro labels
          obtain ⟨ending, slashes, blanks, taken⟩ := exists_takenOff kept
          exact ⟨ending, slashes, blanks, (label_eq_iff taken same).mp labels⟩
        · rintro ⟨ending, slashes, blanks, repeated⟩
          exact (label_eq_iff repeated.toTakenOff same).mpr repeated

example : trimLocation (Analysis.trimUrl "/-/.git") ≠ Analysis.trimUrl "/-/.git" ∧
    namespaceOf (Analysis.trimUrl "/-/.git") "main" = namespaceOf "/-/.git" "main" := by
  decide

end Groundwork.Index
