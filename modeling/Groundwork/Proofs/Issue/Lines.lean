import Groundwork.Proofs.Issue.Patterns

/-!
The lines of issues. A rule reports the line on which the first fit of its pattern begins. A pattern of lines
takes in the blank lines above what it looks for; every other one begins with a character that is not blank.
-/

namespace Groundwork

open Text Pattern

namespace Text

def blankCodes : List Nat :=
  List.range' 9 5 ++ List.range' 28 5 ++ [0x85, 0xa0, 0x1680] ++ List.range' 0x2000 11 ++
    [0x2028, 0x2029, 0x202f, 0x205f, 0x3000]

theorem mem_blankCodes {c : Char} (blank : isBlank c = true) : c.toNat ∈ blankCodes := by
  simp only [isBlank, Bool.or_eq_true, Bool.and_eq_true, decide_eq_true_eq, beq_iff_eq] at blank
  simp only [blankCodes, List.mem_append, List.mem_range'_1, List.mem_cons, List.not_mem_nil, or_false]
  omega

end Text

namespace Issue

def shownLine (content start found : List Char) : Nat :=
  lineOf content (start.length + (found.takeWhile isBlank).length)

def blankAbove (content : List Char) (line : Nat) : Nat :=
  (((splitChars '\n' content).take (line - 1)).reverse.takeWhile fun cs => cs.all isBlank).length

theorem lineOf_append (start rest : List Char) :
    lineOf (start ++ rest) start.length = start.count '\n' + 1 := by
  rw [lineOf, List.take_left]

theorem lineOf_le (content : String) (offset : Nat) :
    1 ≤ lineOf content.toList offset ∧ lineOf content.toList offset ≤ countLines content := by
  rw [lineOf, countLines]
  exact ⟨Nat.le_add_left 1 _, Nat.succ_le_succ ((List.take_sublist offset _).count_le '\n')⟩

structure Topmost (start run : List Char) : Prop where
  blank : ∀ c ∈ run, isBlank c = true
  lineStart : ∀ c ∈ start.getLast?, c = '\n'
  above : ∀ start' line, start = start' ++ line ++ ['\n'] → (∀ c ∈ start'.getLast?, c = '\n') →
    ¬ ∀ c ∈ line, isBlank c = true

theorem blankAbove_eq {start run : List Char} (topmost : Topmost start run) (rest : List Char) :
    blankAbove (start ++ run ++ rest) ((start ++ run).count '\n' + 1) = run.count '\n' := by
  have blank : ∀ line ∈ (splitChars '\n' run).dropLast.reverse, line.all isBlank = true := by
    intro line member
    rw [List.mem_reverse] at member
    refine List.all_eq_true.mpr fun c inside => topmost.blank c ?_
    exact mem_of_mem_splitChars line ((List.dropLast_subset _) member) c inside
  have length : (splitChars '\n' run).dropLast.reverse.length = run.count '\n' := by
    rw [List.length_reverse, List.length_dropLast, length_splitChars, Nat.add_sub_cancel]
  rw [blankAbove, Nat.add_sub_cancel, take_splitChars, ← length]
  congr 1
  cases last : start.getLast? with
  | none =>
      rw [List.getLast?_eq_none_iff.mp last, List.nil_append, List.takeWhile_eq_self_iff.mpr blank]
  | some c =>
      obtain ⟨above, rfl⟩ := List.getLast?_eq_some_iff.mp last
      obtain rfl := topmost.lineStart c last
      obtain ⟨start', line, lines, rfl, starts, split⟩ := exists_lastLine '\n' above
      have text : (line.all isBlank) = false := by
        rw [← Bool.not_eq_true, List.all_eq_true]
        exact topmost.above start' line rfl starts
      rw [List.append_assoc, List.singleton_append, splitChars_append, split,
        List.dropLast_append_of_ne_nil (splitChars_ne_nil '\n' run), List.reverse_append,
        List.takeWhile_append_of_pos blank, List.reverse_append]
      simp [text]

/-- Whether a fit begins with its first character that is not blank, or with the line of that character and the
blank lines above it. -/
inductive Layout : (byLine : Bool) → Pattern → Prop
  | here {p} : Avoids isBlank p → Layout false p
  | line {p} : p.isFree = true → Avoids isBlank p →
      Layout true (followed .lineStart (followed blanks p))

section Layout

variable {p : Pattern} {content start found after : List Char}

theorem shownLine_append (start after : List Char) {run rest : List Char}
    (blank : ∀ c ∈ run, isBlank c = true) (halts : Halts isBlank rest) :
    shownLine (start ++ (run ++ rest ++ after)) start (run ++ rest) = (start ++ run).count '\n' + 1 := by
  rw [shownLine, takeWhile_append blank halts, ← List.length_append, List.append_assoc run,
    ← List.append_assoc start, lineOf_append]

theorem halts_of_visible {c : Char} (visible : isBlank c = false) (rest : List Char) :
    Halts isBlank (c :: rest) := fun _ first => Option.some.inj first ▸ visible

theorem Layout.shown {byLine : Bool} (layout : Layout byLine p) (fit : FirstFit p content start found after) :
    (∃ c ∈ found, isBlank c = false) ∧ shownLine content start found = lineOf content start.length +
      if byLine then blankAbove content (shownLine content start found) else 0 := by
  obtain ⟨rfl, fits, first⟩ := fit
  rw [lineOf_append]
  cases layout with
  | here avoids =>
      obtain ⟨c, rest, rfl, visible⟩ := avoids _ found after fits
      refine ⟨⟨c, List.mem_cons_self, visible⟩, ?_⟩
      have none : ∀ d ∈ ([] : List Char), isBlank d = true := by simp
      simpa using shownLine_append start after none (halts_of_visible visible rest)
  | line free avoids =>
      obtain ⟨_, _, rfl, ⟨rfl, starts⟩, run, y, rfl, blank, ends⟩ := fits
      obtain ⟨c, rest, rfl, visible⟩ := avoids _ y after ends
      refine ⟨⟨c, by simp, visible⟩, ?_⟩
      have topmost : Topmost start run := by
        refine ⟨blank, starts, ?_⟩
        rintro start' line rfl begins blankLine
        have earlier := first start' ((line ++ '\n' :: run) ++ (c :: rest)) after (by simp) ?_
        · simp only [List.length_append, List.length_singleton] at earlier
          omega
        · refine ⟨[], _, rfl, ⟨rfl, begins⟩, line ++ '\n' :: run, c :: rest, rfl, ?_, ends.from free _⟩
          refine List.forall_mem_append.mpr ⟨blankLine, List.forall_mem_cons.mpr ⟨by decide, blank⟩⟩
      have shown := shownLine_append start after blank (halts_of_visible visible rest)
      have above := blankAbove_eq topmost (c :: rest ++ after)
      rw [List.nil_append, shown, if_pos rfl, List.append_assoc run, ← List.append_assoc start, above,
        List.count_append]
      omega

end Layout

theorem Layout.byLanguage {line here : Pattern} (python : Bool) (first : Layout true line)
    (second : Layout false here) : Layout python (if python then line else here) := by
  cases python with
  | true => exact first
  | false => exact second

theorem byLanguage_iff {spot other : Spot} {p q : Pattern} (python : Bool)
    (first : ∀ before rest, spot before rest = true ↔ p.Begins before rest)
    (second : ∀ before rest, other before rest = true ↔ q.Begins before rest)
    (before : Option Char) (rest : List Char) : (if python then spot else other) before rest = true ↔
      (if python then p else q).Begins before rest := by
  cases python with
  | true => exact first before rest
  | false => exact second before rest

structure Sought where
  rule : Rule
  pattern : (path : String) → Pattern
  applies : (path : String) → (content : List Char) → Prop
  byLine : (path : String) → Bool
  layout (path : String) : Layout (byLine path) (pattern path)
  finds (path : String) (content : List Char) (n : Nat) : rule.offset? path content = some n ↔
    applies path content ∧ ∃ start found after,
      FirstFit (pattern path) content start found after ∧ start.length = n

namespace Sought

theorem found_iff {spot : Spot} {p : Pattern} {applies : Prop}
    (same : ∀ before rest, spot before rest = true ↔ p.Begins before rest) (always : applies)
    (content : List Char) (n : Nat) : find? spot content = some n ↔ applies ∧ ∃ start found after,
      FirstFit p content start found after ∧ start.length = n :=
  (find?_eq_some_iff same).trans (and_iff_right always).symm

def dangerousCall : Sought where
  rule := Issue.dangerousCall
  pattern path :=
    callPattern (if isPythonPath path then ["eval", "exec"] else ["eval", "Function"])
  applies _ _ := True
  byLine _ := false
  layout _ := .here (avoids_wordPattern (by split <;> decide))
  finds _ content n := found_iff (callOf_iff _) trivial content n

theorem not_isBlank_of_ignoringCase {l : Char} (none : ∀ n ∈ blankCodes, ignoringCase l (Char.ofNat n) = false)
    (c : Char) (same : ignoringCase l c = true) : isBlank c = false := by
  cases blank : isBlank c with
  | false => rfl
  | true =>
      have differs := none c.toNat (mem_blankCodes blank)
      rw [Char.ofNat_toNat, same] at differs
      cases differs

def hardcodedPassword : Sought where
  rule := Issue.hardcodedPassword
  pattern _ := passwordPattern
  applies _ _ := True
  byLine _ := false
  layout _ := .here (avoids_spelled rfl (not_isBlank_of_ignoringCase (by decide +kernel))).followed
  finds _ content n := found_iff passwordText_iff trivial content n

def hardcodedKey : Sought where
  rule := Issue.hardcodedKey
  pattern _ := apiKeyPattern
  applies _ _ := True
  byLine _ := false
  layout _ := .here (avoids_spelled rfl (not_isBlank_of_ignoringCase (by decide +kernel))).followed
  finds _ content n := found_iff apiKeyText_iff trivial content n

def sqlInjection : Sought where
  rule := Issue.sqlInjection
  pattern _ := wholePattern ["SELECT", "INSERT", "UPDATE"]
  applies path content := ∃ join ∈ sqlJoins (isPythonPath path), hasText content join = true
  byLine _ := false
  layout _ := .here (avoids_wordPattern (by decide))
  finds path content n := by
    rw [Issue.sqlInjection, Option.ite_none_right_eq_some, List.any_eq_true,
      find?_eq_some_iff (wholeWord_iff (by decide))]

def awaitInLoop : Sought where
  rule := Issue.awaitInLoop
  pattern path := if isPythonPath path then loopPattern else callPattern ["for"]
  applies path content :=
    hasText content (if isPythonPath path then "asyncio.gather" else "Promise.all") = false ∧
      (wordBlankPattern ["await"]).Occurs content
  byLine := isPythonPath
  layout path :=
    .byLanguage (isPythonPath path) (.line rfl avoids_loop) (.here (avoids_wordPattern (by decide)))
  finds path content n := by
    have same := byLanguage_iff (isPythonPath path) loopLine_iff (callOf_iff ["for"])
    rw [Issue.awaitInLoop, Option.ite_none_left_eq_some, find?_eq_some_iff same,
      ← find?_isSome_iff (wordThenBlank_iff ["await"])]
    simp [Option.isSome_iff_ne_none]

def missingErrorHandling : Sought where
  rule := Issue.missingErrorHandling
  pattern _ := wordBlankPattern ["async", "await"]
  applies _ content := ¬ (wholePattern ["try"]).Occurs content
  byLine _ := false
  layout _ := .here (avoids_wordPattern (by decide))
  finds _ content n := by
    rw [Issue.missingErrorHandling, Option.ite_none_left_eq_some,
      find?_eq_some_iff (wordThenBlank_iff _), find?_isSome_iff (wholeWord_iff (by decide))]

def debugOutput : Sought where
  rule := Issue.debugOutput
  pattern path := if isPythonPath path then printPattern else callPattern ["console.log"]
  applies path _ := containsAny (lower path) ["dev", "debug"] = false
  byLine := isPythonPath
  layout path :=
    .byLanguage (isPythonPath path) (.line rfl avoids_printed) (.here (avoids_wordPattern (by decide)))
  finds path content n := by
    have same := byLanguage_iff (isPythonPath path) printLine_iff (callOf_iff ["console.log"])
    rw [Issue.debugOutput, Option.ite_none_left_eq_some, find?_eq_some_iff same, Bool.not_eq_true]

def workLeft : Sought where
  rule := Issue.workLeft
  pattern path := markerPattern (if isPythonPath path then "#" else "//")
  applies _ _ := True
  byLine _ := false
  layout path := by
    refine .here ?_
    split <;> exact (avoids_word rfl (by decide)).followed
  finds _ content n := found_iff (markerAfter_iff _) trivial content n

end Sought

def sought : List Sought :=
  [.dangerousCall, .hardcodedPassword, .hardcodedKey, .sqlInjection, .awaitInLoop,
    .missingErrorHandling, .debugOutput, .workLeft]

theorem rules_eq : rules = sought.map Sought.rule := rfl

theorem mem_detect_iff {path content : String} {issue : Issue} : issue ∈ detect path content ↔
    ∃ s ∈ sought, s.rule.report? path content.toList = some issue := by
  simp [detect, rules_eq]

/-- Every issue has the line on which the first fit of a pattern begins, a line of the file. That line holds the
first character of the fit that is not blank, unless the pattern is one of lines: then the line of that character
comes behind the reported one by as many lines as there are blank ones directly above it. -/
theorem detect_lines (path content : String) :
    (∀ issue ∈ detect path content, ∃ s ∈ sought, s.rule.report? path content.toList = some issue ∧
      s.applies path content.toList ∧ (s.pattern path).Occurs content.toList ∧
      ∃ line, issue.line = some line ∧ 1 ≤ line ∧ line ≤ countLines content ∧
        ∀ start found after, FirstFit (s.pattern path) content.toList start found after →
          line = lineOf content.toList start.length ∧ (∃ c ∈ found, isBlank c = false) ∧
          shownLine content.toList start found = line + if s.byLine path then
            blankAbove content.toList (shownLine content.toList start found) else 0) ∧
    (∀ s ∈ sought, s.applies path content.toList → (s.pattern path).Occurs content.toList →
      ∃ issue ∈ detect path content, s.rule.report? path content.toList = some issue) := by
  constructor
  · intro issue member
    obtain ⟨s, listed, report⟩ := mem_detect_iff.mp member
    obtain ⟨n, offset, rfl⟩ := Option.map_eq_some_iff.mp report
    obtain ⟨applies, start, found, after, fit, rfl⟩ := (s.finds path content.toList n).mp offset
    obtain ⟨atLeast, atMost⟩ := lineOf_le content start.length
    have occurs : (s.pattern path).Occurs content.toList := ⟨start, found, after, fit.whole, fit.fits⟩
    refine ⟨s, listed, report, applies, occurs, _, rfl, atLeast, atMost, ?_⟩
    intro start' found' after' other
    rw [fit.length_eq other]
    exact ⟨rfl, (s.layout path).shown other⟩
  · intro s listed applies occurs
    obtain ⟨start, found, after, fit⟩ := occurs.exists_firstFit
    have offset := (s.finds path content.toList _).mpr ⟨applies, start, found, after, fit, rfl⟩
    have some : (s.rule.report? path content.toList).isSome = true := by
      rw [Rule.report?, offset, Option.map_some, Option.isSome_some]
    obtain ⟨issue, report⟩ := Option.isSome_iff_exists.mp some
    exact ⟨issue, mem_detect_iff.mpr ⟨s, listed, report⟩, report⟩

def argvScript : String := "import sys\n\nprint(sys.argv)\n"

/-- The blank line is reported, not the one with the call of `print` below it. -/
theorem argvScript_blankLine :
    (detect "app/main.py" argvScript).map (fun issue => (issue.description, issue.line)) =
        [(Sought.debugOutput.rule.description, some 2)] ∧
      FirstFit (Sought.debugOutput.pattern "app/main.py") argvScript.toList
        "import sys\n".toList "\nprint(".toList "sys.argv)\n".toList ∧
      shownLine argvScript.toList "import sys\n".toList "\nprint(".toList = 3 := by
  refine ⟨by decide +kernel, ?_, by decide⟩
  have place : find? printLine argvScript.toList = some 11 := by decide
  obtain ⟨start, found, after, fit, length⟩ := (find?_eq_some_iff printLine_iff).mp place
  have python : isPythonPath "app/main.py" = true := by decide
  have pattern : Sought.debugOutput.pattern "app/main.py" = printPattern := by
    simp [Sought.debugOutput, python]
  have called : printed.Fits (some '\n') "print(".toList "sys.argv)\n".toList :=
    ⟨"print".toList, ['('], by decide, fits_word.mpr rfl, [], ['('], rfl, by simp [blanks, Fits],
      ['('], [], rfl, ⟨'(', rfl, rfl⟩, rfl⟩
  have last : "import sys\n".toList.getLast? = some '\n' := by decide
  rw [pattern]
  refine ⟨by decide, ?_, fun start' found' after' whole fits => ?_⟩
  · rw [last]
    exact ⟨[], _, rfl, ⟨rfl, fun c same => (Option.some.inj same).symm⟩, ['\n'], "print(".toList,
      by decide, by simp [blanks, Fits, isBlank], called⟩
  · have earliest := fit.first start' found' after' whole fits
    rwa [length] at earliest

end Issue

end Groundwork
