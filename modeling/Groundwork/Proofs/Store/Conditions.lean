import Groundwork.Store.Row
import Mathlib.Data.List.Basic

/-!
Reading a written condition. The reader goes through the characters from the left and knows words, equals
signs and literals. A literal ends at a quote that no other quote follows; two quotes stand for one. What was
written for a filter is read back as the equalities of the filter, whatever its values hold.
-/

namespace Groundwork.Store

namespace Condition

inductive Token where
  | word (chars : List Char)
  | equals
  | literal (value : List Char)

/-- Where a reader stands: between parts, in a word or a literal that has been read so far, or behind a quote
that ends the literal unless another one follows. What has been read is reversed. -/
inductive Stand where
  | outside
  | word (read : List Char)
  | literal (read : List Char)
  | quote (read : List Char)

def startsWord (c : Char) : Bool := Text.isAsciiLetter c || c == '_'

def goesOn (c : Char) : Bool := startsWord c || Text.isAsciiDigit c

def enter (c : Char) : Option (List Token × Stand) :=
  if Text.isBlank c then some ([], .outside)
  else if c = '=' then some ([.equals], .outside)
  else if c = '\'' then some ([], .literal [])
  else if startsWord c then some ([], .word [c])
  else none

def step : Stand → Char → Option (List Token × Stand)
  | .outside, c => enter c
  | .word read, c =>
    if goesOn c then some ([], .word (c :: read))
    else (enter c).map fun (tokens, stand) => (.word read.reverse :: tokens, stand)
  | .literal read, c => if c = '\'' then some ([], .quote read) else some ([], .literal (c :: read))
  | .quote read, c =>
    if c = '\'' then some ([], .literal (c :: read))
    else (enter c).map fun (tokens, stand) => (.literal read.reverse :: tokens, stand)

def close : Stand → Option (List Token)
  | .outside => some []
  | .word read => some [.word read.reverse]
  | .literal _ => none
  | .quote read => some [.literal read.reverse]

def tokensFrom : Stand → List Char → Option (List Token)
  | stand, [] => close stand
  | stand, c :: rest =>
    (step stand c).bind fun (tokens, stand) => (tokensFrom stand rest).map (tokens ++ ·)

def isConjunction (word : List Char) : Bool := word.map Char.toUpper == "AND".toList

def equalities? : List Token → Option Filter
  | [.word column, .equals, .literal value] => some [(.ofList column, .ofList value)]
  | .word column :: .equals :: .literal value :: .word joint :: rest =>
    if isConjunction joint then
      (equalities? rest).map ((.ofList column, .ofList value) :: ·)
    else none
  | _ => none

def read? : Option String → Option Filter
  | none => some []
  | some written => (tokensFrom .outside written.toList).bind equalities?

section Reading

variable {stand next : Stand} {c : Char} {rest : List Char}

theorem tokensFrom_cons {tokens : List Token} (steps : step stand c = some (tokens, next)) :
    tokensFrom stand (c :: rest) = (tokensFrom next rest).map (tokens ++ ·) := by
  rw [tokensFrom, steps, Option.bind_some]

theorem tokensFrom_silent (steps : step stand c = some ([], next)) :
    tokensFrom stand (c :: rest) = tokensFrom next rest := by
  rw [tokensFrom_cons steps]
  cases tokensFrom next rest <;> rfl

theorem tokensFrom_word {name : List Char} (inName : ∀ c ∈ name, goesOn c = true)
    (read rest : List Char) :
    tokensFrom (.word read) (name ++ rest) = tokensFrom (.word (name.reverse ++ read)) rest := by
  induction name generalizing read with
  | nil => rfl
  | cons c name ih =>
      obtain ⟨first, others⟩ := List.forall_mem_cons.mp inName
      rw [List.cons_append, tokensFrom_silent (by rw [step, if_pos first]), ih others,
        List.reverse_cons, List.append_assoc, List.singleton_append]

def doubled (value : List Char) : List Char :=
  value.flatMap fun c => if c = '\'' then ['\'', '\''] else [c]

/-- Whatever a value holds, its literal ends at the quote that was written for it. -/
theorem tokensFrom_literal (value read rest : List Char) :
    tokensFrom (.literal read) (doubled value ++ '\'' :: rest) =
      tokensFrom (.quote (value.reverse ++ read)) rest := by
  induction value generalizing read with
  | nil => exact tokensFrom_silent rfl
  | cons c value ih =>
      rw [doubled, List.flatMap_cons, ← doubled, List.append_assoc, List.reverse_cons,
        List.append_assoc, List.singleton_append, ← ih]
      by_cases quote : c = '\''
      · subst quote
        have ends : step (.literal read) '\'' = some ([], .quote read) := rfl
        have goesOn : step (.quote read) '\'' = some ([], .literal ('\'' :: read)) := rfl
        rw [if_pos rfl, List.cons_append, tokensFrom_silent ends, List.cons_append,
          tokensFrom_silent goesOn, List.nil_append]
      · rw [if_neg quote, List.singleton_append, tokensFrom_silent (by rw [step, if_neg quote])]

end Reading

section Writing

def clause : String × String → String := fun (column, value) => column ++ " = " ++ quoted value

def tokensOf (e : String × String) : List Token :=
  [.word e.1.toList, .equals, .literal e.2.toList]

def tokensOfAll : Filter → List Token
  | [] => []
  | [e] => tokensOf e
  | e :: f :: rest => tokensOf e ++ .word "AND".toList :: tokensOfAll (f :: rest)

theorem toList_quoted (value : String) :
    (quoted value).toList = '\'' :: (doubled value.toList ++ ['\'']) := by
  have two : "''".toList = ['\'', '\''] := rfl
  simp [quoted, Text.substitute, two, doubled]

theorem column_word {column : String} (allowed : column ∈ filterColumns) :
    ∃ c cs, column.toList = c :: cs ∧ enter c = some ([], .word [c]) ∧
      ∀ d ∈ cs, goesOn d = true := by
  simp only [filterColumns, List.mem_cons, List.not_mem_nil, or_false] at allowed
  rcases allowed with rfl | rfl | rfl | rfl <;> exact ⟨_, _, rfl, rfl, List.all_eq_true.mp rfl⟩

variable {column : String} (value : String) (rest : List Char)

theorem tokensFrom_clause (allowed : column ∈ filterColumns) :
    tokensFrom .outside ((clause (column, value)).toList ++ rest) =
      (tokensFrom (.quote value.toList.reverse) rest).map
        ([.word column.toList, .equals] ++ ·) := by
  obtain ⟨c, cs, spelt, begins, others⟩ := column_word allowed
  have written : (clause (column, value)).toList ++ rest =
      c :: (cs ++ ' ' :: '=' :: ' ' :: '\'' :: (doubled value.toList ++ '\'' :: rest)) := by
    simp [clause, toList_quoted, spelt]
  have ended : step (.word (cs.reverse ++ [c])) ' ' = some ([.word (c :: cs)], .outside) := by
    simp [step, enter, show goesOn ' ' = false from rfl, show Text.isBlank ' ' = true from rfl]
  have equals : step .outside '=' = some ([.equals], .outside) := rfl
  have blank : step .outside ' ' = some ([], .outside) := rfl
  have opens : step .outside '\'' = some ([], .literal []) := rfl
  rw [written, tokensFrom_silent (by rw [step, begins]), tokensFrom_word others,
    tokensFrom_cons ended, tokensFrom_cons equals, tokensFrom_silent blank, tokensFrom_silent opens,
    tokensFrom_literal, List.append_nil, spelt]
  cases tokensFrom (.quote value.toList.reverse) rest <;> rfl

theorem tokensFrom_joint (read : List Char) :
    tokensFrom (.quote read) (" AND ".toList ++ rest) = (tokensFrom .outside rest).map
      ([.literal read.reverse, .word "AND".toList] ++ ·) := by
  have ended : step (.quote read) ' ' = some ([.literal read.reverse], .outside) := by
    simp [step, enter, show Text.isBlank ' ' = true from rfl]
  have spelt : " AND ".toList ++ rest = ' ' :: 'A' :: 'N' :: 'D' :: ' ' :: rest := rfl
  have first : step .outside 'A' = some ([], .word ['A']) := rfl
  have second : step (.word ['A']) 'N' = some ([], .word ['N', 'A']) := rfl
  have third : step (.word ['N', 'A']) 'D' = some ([], .word ['D', 'N', 'A']) := rfl
  have last : step (.word ['D', 'N', 'A']) ' ' = some ([.word ['A', 'N', 'D']], .outside) := rfl
  rw [spelt, tokensFrom_cons ended, tokensFrom_silent first, tokensFrom_silent second,
    tokensFrom_silent third, tokensFrom_cons last]
  cases tokensFrom .outside rest <;> rfl

theorem tokensFrom_written {filter : Filter} (filled : filter ≠ [])
    (allowed : ∀ e ∈ filter, e.1 ∈ filterColumns) :
    tokensFrom .outside (Text.join " AND " (filter.map clause)).toList =
      some (tokensOfAll filter) := by
  induction filter with
  | nil => exact absurd rfl filled
  | cons e filter ih =>
      obtain ⟨first, others⟩ := List.forall_mem_cons.mp allowed
      cases filter with
      | nil =>
          have whole := tokensFrom_clause e.2 [] first
          rw [List.append_nil] at whole
          rw [List.map_singleton, Text.join, String.intercalate_singleton, whole, tokensFrom, close]
          simp [tokensOfAll, tokensOf]
      | cons f filter =>
          rw [List.map_cons, List.map_cons, Text.join, String.intercalate_cons_cons, ← Text.join,
            ← List.map_cons, String.toList_append, String.toList_append, List.append_assoc,
            tokensFrom_clause e.2 _ first, tokensFrom_joint, ih (List.cons_ne_nil f filter) others]
          simp [tokensOfAll, tokensOf]

theorem equalities?_tokensOfAll {filter : Filter} (filled : filter ≠ []) :
    equalities? (tokensOfAll filter) = some filter := by
  induction filter with
  | nil => exact absurd rfl filled
  | cons e filter ih =>
      cases filter with
      | nil => simp [tokensOfAll, tokensOf, equalities?]
      | cons f filter =>
          have joint : isConjunction "AND".toList = true := by decide
          rw [tokensOfAll, tokensOf, List.cons_append, List.cons_append, List.cons_append,
            List.nil_append, equalities?, if_pos joint, ih (List.cons_ne_nil f filter)]
          simp

end Writing

end Condition

/-- The equalities that a mapping of columns to values asks for: each value counts as its text. -/
def equalitiesOf (mapping : Json.Members) : Filter :=
  mapping.map fun (column, value) => (column, value.shown)

def FirstUnknown (columns : List String) (column : String) : Prop :=
  column ∉ filterColumns ∧
    ∃ before after, columns = before ++ column :: after ∧ ∀ known ∈ before, known ∈ filterColumns

theorem badColumn?_eq_some {filter : Filter} {column : String} (bad : badColumn? filter = some column) :
    FirstUnknown (filter.map (·.1)) column := by
  obtain ⟨unknown, before, after, columns, known⟩ := List.find?_eq_some_iff_append.mp bad
  exact ⟨by simpa using unknown, before, after, columns, by simpa using known⟩

theorem badColumn?_eq_none {filter : Filter} (good : badColumn? filter = none) :
    ∀ e ∈ filter, e.1 ∈ filterColumns := by
  simpa [badColumn?] using good

/-- A mapping with a column that rows cannot be chosen by is refused for the first such column. For any other
mapping a condition is written, unless the mapping is empty, and what is read in it is that each column equals
the text of its value, in order. -/
theorem condition?_read (mapping : Json.Members) :
    (∃ column, FirstUnknown (mapping.map (·.1)) column ∧
      condition? (equalitiesOf mapping) = .error (.store (.unsupportedColumn column))) ∨
    (∀ e ∈ mapping, e.1 ∈ filterColumns) ∧
      ∃ written, condition? (equalitiesOf mapping) = .ok written ∧
        (written = none ↔ mapping = []) ∧ Condition.read? written = some (equalitiesOf mapping) := by
  have columns : (equalitiesOf mapping).map (·.1) = mapping.map (·.1) := by simp [equalitiesOf]
  have empty : equalitiesOf mapping = [] ↔ mapping = [] := by simp [equalitiesOf]
  rw [condition?]
  cases found : badColumn? (equalitiesOf mapping) with
  | some column => exact Or.inl ⟨column, columns ▸ badColumn?_eq_some found, rfl⟩
  | none =>
      have allowed := badColumn?_eq_none found
      refine Or.inr ⟨fun e member => allowed (e.1, e.2.shown) (List.mem_map_of_mem member), ?_⟩
      by_cases none : mapping = []
      · subst none
        exact ⟨Option.none, rfl, by simp, rfl⟩
      · have filled := mt empty.mp none
        refine ⟨_, if_neg (by simpa using filled), by simp [none], ?_⟩
        have written := Condition.tokensFrom_written filled allowed
        exact (congrArg (·.bind Condition.equalities?) written).trans
          (Condition.equalities?_tokensOfAll filled)

example : Condition.read? (some "file_path = ''' OR ''a'' = ''a' AND type = 'file'") =
    some [("file_path", "' OR 'a' = 'a"), ("type", "file")] := by
  decide

end Groundwork.Store
