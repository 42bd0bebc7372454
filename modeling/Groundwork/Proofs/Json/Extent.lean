import Groundwork.Proofs.Json.Tokens

/-!
How far a value goes. The value at the beginning of a text is the same wherever that beginning stands and
whatever follows it, so a document has the same value without the space around it. Its first and its last
character are among few.
-/

namespace Groundwork.Json

open Text (Halts halts_append)

def opens (c : Char) : Bool :=
  Text.isAsciiDigit c || ['"', '[', '\x7b', '-', 'n', 't', 'f', 'N', 'I'].contains c

def closes (c : Char) : Bool :=
  Text.isAsciiDigit c || ['"', ']', '\x7d', 'l', 'e', 'N', 'y'].contains c

structure Framed (cs : List Char) : Prop where
  first : ∃ c ∈ cs.head?, opens c = true
  last : ∃ c ∈ cs.getLast?, closes c = true

section Framed

variable {c : Char} {cs before after rest : List Char}

theorem not_isSpace_of_opens (opened : opens c = true) : Place.isSpace c = false := by
  cases space : Place.isSpace c with
  | false => rfl
  | true =>
      simp only [Place.isSpace, Bool.or_eq_true, beq_iff_eq] at space
      rcases space with ((rfl | rfl) | rfl) | rfl
      all_goals cases opened

theorem Framed.exists_cons (framed : Framed cs) : ∃ c more, cs = c :: more ∧ opens c = true := by
  obtain ⟨c, first, opened⟩ := framed.first
  cases cs with
  | nil => cases first
  | cons d more =>
      cases first
      exact ⟨_, more, rfl, opened⟩

theorem Framed.halts (framed : Framed cs) (rest : List Char) : Halts Place.isSpace (cs ++ rest) := by
  obtain ⟨c, more, rfl, opened⟩ := framed.exists_cons
  intro d first
  cases first
  exact not_isSpace_of_opens opened

theorem last_append (last : ∃ c ∈ cs.getLast?, closes c = true) (before : List Char) :
    ∃ c ∈ (before ++ cs).getLast?, closes c = true := by
  have some : cs ≠ [] := by
    rintro rfl
    obtain ⟨c, none, -⟩ := last
    cases none
  rw [List.getLast?_append_of_ne_nil _ some]
  exact last

theorem first_append (first : ∃ c ∈ cs.head?, opens c = true) (after : List Char) :
    ∃ c ∈ (cs ++ after).head?, opens c = true := by
  cases cs with
  | nil =>
      obtain ⟨c, none, -⟩ := first
      cases none
  | cons d cs => exact first

end Framed

section Takes

variable {α : Type} {read : Nat → Place → Except ReadError (α × Place)} {used : List Char} {a : α}

/-- `used` is read as `a` wherever it stands, unless a number could go on with what follows. -/
def Takes (read : Nat → Place → Except ReadError (α × Place)) (used : List Char) (a : α) : Prop :=
  ∀ fuel offset rest, used.length < fuel → Halts goesOn rest →
    read fuel ⟨offset, used ++ rest⟩ = .ok (a, ⟨offset + used.length, rest⟩)

def Found (read : Nat → Place → Except ReadError (α × Place)) (p after : Place) (a : α) : Prop :=
  ∃ used, p.rest = used ++ after.rest ∧ Framed used ∧ Takes read used a

theorem halts_goesOn_of_space {space rest : List Char} (isSpace : IsSpace space)
    (halts : Halts goesOn rest) : Halts goesOn (space ++ rest) := by
  refine halts_append ?_ halts
  intro c first
  have spaced := isSpace c (List.mem_of_mem_head? first)
  simp only [Place.isSpace, Bool.or_eq_true, beq_iff_eq] at spaced
  rcases spaced with ((rfl | rfl) | rfl) | rfl
  all_goals decide

theorem halts_goesOn_mark {space rest : List Char} {c : Char} (isSpace : IsSpace space)
    (past : goesOn c = false) : Halts goesOn (space ++ c :: rest) := by
  refine halts_goesOn_of_space isSpace ?_
  intro d first
  cases first
  exact past

end Takes

section Scalars

theorem advance_one {p : Place} {c : Char} {tail : List Char} (begins : p.rest = c :: tail) :
    (p.advance 1).rest = tail := by
  rw [Place.advance, begins]
  rfl

theorem readValue_text (fuel offset : Nat) (cs : List Char) :
    readValue (fuel + 1) ⟨offset, '"' :: cs⟩ =
      readText offset (cs.length + 2) ⟨offset + 1, cs⟩ [] >>= fun (s, after) => .ok (str s, after) :=
  rfl

theorem found_text {p after : Place} {s : String} {start fuel : Nat} {tail : List Char}
    (quote : p.rest = '"' :: tail) (taken : readText start fuel (p.advance 1) [] = .ok (s, after)) :
    Found readValue p after (str s) := by
  obtain ⟨used, parts, ends⟩ := readText_takes start fuel taken
  refine ⟨'"' :: used, ?_, ⟨⟨'"', rfl, rfl⟩, ?_⟩, ?_⟩
  · rw [quote, ← advance_one quote, parts, List.cons_append]
  · exact last_append ⟨'"', ends.last, rfl⟩ ['"']
  · intro fuel' offset rest enough _
    cases fuel' with
    | zero => cases enough
    | succ fuel' =>
        have length : offset + 1 + used.length = offset + ('"' :: used).length := by
          rw [List.length_cons]
          omega
        have read := ends.reads offset ((used ++ rest).length + 2) (offset + 1) rest
          (by rw [List.length_append]; omega)
        rw [List.cons_append, readValue_text, read, ← length]
        rfl

theorem readValue_plain {c : Char} (other : c ≠ '"' ∧ c ≠ '[' ∧ c ≠ '\x7b') (fuel offset : Nat)
    (cs : List Char) : readValue (fuel + 1) ⟨offset, c :: cs⟩ =
      match readWord? ⟨offset, c :: cs⟩ with
      | some result => .ok result
      | none => readNumber ⟨offset, c :: cs⟩ := by
  rw [readValue]
  split
  · rename_i same
    cases same
  · rename_i same
    exact absurd (List.cons.inj same).1 other.1
  · rename_i same
    exact absurd (List.cons.inj same).1 other.2.1
  · rename_i same
    exact absurd (List.cons.inj same).1 other.2.2
  · rfl

theorem found_word {p after : Place} {v : Json} (taken : readWord? p = some (v, after)) :
    Found readValue p after v := by
  obtain ⟨word, mem, parts⟩ := readWord?_eq_some taken
  have read := readWord?_word mem
  refine ⟨word.toList, parts, ?_, ?_⟩
  · simp only [words, List.mem_cons, List.not_mem_nil, or_false] at mem
    rcases mem with same | same | same | same | same | same
    all_goals
      cases same
      exact ⟨⟨_, rfl, rfl⟩, ⟨_, rfl, rfl⟩⟩
  · intro fuel offset rest enough _
    have plain : ∃ c cs, word.toList = c :: cs ∧ c ≠ '"' ∧ c ≠ '[' ∧ c ≠ '\x7b' := by
      simp only [words, List.mem_cons, List.not_mem_nil, or_false] at mem
      rcases mem with same | same | same | same | same | same
      all_goals
        cases same
        exact ⟨_, _, rfl, by decide⟩
    obtain ⟨c, cs, word_eq, other⟩ := plain
    specialize read offset rest
    rw [word_eq] at read ⊢
    cases fuel with
    | zero => cases enough
    | succ fuel =>
        rw [List.cons_append] at read ⊢
        rw [readValue_plain other, read]

theorem other_of_starts {c : Char} {more : List Char} (start : Text.isAsciiDigit c = true ∨
    c = '-' ∧ ∃ d others, more = d :: others ∧ Text.isAsciiDigit d = true) :
    c ≠ '"' ∧ c ≠ '[' ∧ c ≠ '\x7b' := by
  refine ⟨?_, ?_, ?_⟩
  all_goals
    rintro rfl
    rcases start with digit | ⟨minus, -⟩
    · cases digit
    · cases minus

theorem found_number {p after : Place} {v : Json} (taken : readNumber p = .ok (v, after)) :
    Found readValue p after v := by
  obtain ⟨used, parts, number, read⟩ := readNumber_takes taken
  obtain ⟨c, more, rfl, start⟩ := number.starts
  refine ⟨c :: more, parts, ⟨⟨c, rfl, ?_⟩, ?_⟩, ?_⟩
  · rcases start with digit | ⟨rfl, -⟩
    · rw [opens, digit, Bool.true_or]
    · rfl
  · obtain ⟨d, last, digit⟩ := number.ends
    exact ⟨d, last, by rw [closes, digit, Bool.true_or]⟩
  · -- Of all values a number alone does not say where it ends, and here `halts` is needed.
    intro fuel offset rest enough halts
    have other := other_of_starts start
    cases fuel with
    | zero => cases enough
    | succ fuel =>
        have no_word := readWord?_number number offset rest
        have number_read := read offset rest halts
        rw [List.cons_append] at no_word number_read ⊢
        rw [readValue_plain other, no_word]
        exact number_read

end Scalars

section Listings

variable {β σ : Type} {close : Char} {push : β → σ → σ} {finish : σ → Json} {fuel : Nat} {p after : Place}
  {v : Json} {b : β} {s : σ} {space rest : List Char}

theorem skipSpace_mark (isSpace : IsSpace space) {c : Char} (bare : Place.isSpace c = false)
    (offset : Nat) : Place.skipSpace ⟨offset, space ++ c :: rest⟩ = ⟨offset + space.length, c :: rest⟩ := by
  refine skipSpace_append isSpace ?_ offset
  intro d first
  cases first
  exact bare

def continued (again : Place → σ → Except ReadError (Json × Place)) (close : Char) (finish : σ → Json)
    (s : σ) (next : Place) : Except ReadError (Json × Place) :=
  if next.rest.head? = some close then .ok (finish s, next.advance 1)
  else if next.rest.head? = some ',' then again (next.advance 1).skipSpace s
  else next.error .comma

def listing (element : Place → Except ReadError (β × Place))
    (again : Place → σ → Except ReadError (Json × Place)) (close : Char) (push : β → σ → σ)
    (finish : σ → Json) (p : Place) (s : σ) : Except ReadError (Json × Place) :=
  element p >>= fun (b, after) => continued again close finish (push b s) after.skipSpace

variable {element : Place → Except ReadError (β × Place)}
  {again : Place → σ → Except ReadError (Json × Place)} {next : Place} {tail : List Char}

theorem continued_closed (closed : next.rest = close :: tail) :
    continued again close finish s next = .ok (finish s, next.advance 1) := by
  rw [continued, closed, List.head?_cons, if_pos rfl]

theorem continued_comma (comma : next.rest = ',' :: tail) (other : close ≠ ',') :
    continued again close finish s next = again (next.advance 1).skipSpace s := by
  have apart : (some ',' : Option Char) ≠ some close := fun same => other (Option.some.inj same).symm
  rw [continued, comma, List.head?_cons, if_neg apart, if_pos rfl]

theorem continued_refused (closed : ∀ tail, next.rest ≠ close :: tail)
    (comma : ∀ tail, next.rest ≠ ',' :: tail) :
    continued again close finish s next = next.error .comma := by
  rw [continued, if_neg, if_neg]
  · intro first
    obtain ⟨tail, same⟩ := List.head?_eq_some_iff.mp first
    exact comma tail same
  · intro first
    obtain ⟨tail, same⟩ := List.head?_eq_some_iff.mp first
    exact closed tail same

theorem listing_last {here : Nat} (isSpace : IsSpace space) (bare : Place.isSpace close = false)
    (taken : element p = .ok (b, ⟨here, space ++ close :: rest⟩)) :
    listing element again close push finish p s =
      .ok (finish (push b s), ⟨here + space.length + 1, rest⟩) := by
  rw [listing, taken]
  dsimp only [bind, Except.bind]
  rw [skipSpace_mark isSpace bare, continued_closed rfl]
  rfl

theorem listing_next {here : Nat} (isSpace : IsSpace space) (other : close ≠ ',')
    (taken : element p = .ok (b, ⟨here, space ++ ',' :: rest⟩)) :
    listing element again close push finish p s =
      again (Place.skipSpace ⟨here + space.length + 1, rest⟩) (push b s) := by
  rw [listing, taken]
  dsimp only [bind, Except.bind]
  rw [skipSpace_mark isSpace (by decide), continued_comma rfl other]
  rfl

section Steps

variable {elements : Nat → Place → Except ReadError (β × Place)}
  {lists : Nat → Place → σ → Except ReadError (Json × Place)} {used others space' : List Char}
  (step : ∀ fuel p s, lists (fuel + 1) p s = listing (elements fuel) (lists fuel) close push finish p s)

include step

theorem takes_last (takes : Takes elements used b) (isSpace : IsSpace space)
    (bare : Place.isSpace close = false) (past : goesOn close = false) :
    Takes (fun fuel p => lists fuel p s) (used ++ (space ++ [close])) (finish (push b s)) := by
  intro fuel offset rest enough _
  cases fuel with
  | zero => cases enough
  | succ fuel =>
      simp only [List.length_append, List.length_singleton] at enough ⊢
      have read := takes fuel offset (space ++ close :: rest) (by omega) (halts_goesOn_mark isSpace past)
      have whole : used ++ (space ++ [close]) ++ rest = used ++ (space ++ close :: rest) := by simp
      rw [whole, step, listing_last isSpace bare read, Nat.add_assoc, Nat.add_assoc]

theorem takes_next (takes : Takes elements used b) (isSpace : IsSpace space) (isSpace' : IsSpace space')
    (other : close ≠ ',') (framed : Framed others)
    (again : Takes (fun fuel p => lists fuel p (push b s)) others v) :
    Takes (fun fuel p => lists fuel p s) (used ++ (space ++ ',' :: (space' ++ others))) v := by
  intro fuel offset rest enough halts
  cases fuel with
  | zero => cases enough
  | succ fuel =>
      simp only [List.length_append, List.length_cons] at enough ⊢
      have read := takes fuel offset (space ++ ',' :: (space' ++ (others ++ rest))) (by omega)
        (halts_goesOn_mark isSpace (by decide))
      have whole : used ++ (space ++ ',' :: (space' ++ others)) ++ rest =
          used ++ (space ++ ',' :: (space' ++ (others ++ rest))) := by simp
      have there : offset + used.length + space.length + 1 + space'.length + others.length =
          offset + (used.length + (space.length + (space'.length + others.length + 1))) := by
        omega
      rw [whole, step, listing_next isSpace other read, skipSpace_append isSpace' (framed.halts rest),
        ← there]
      exact again fuel _ rest (by omega) halts

theorem found_listing (closing : close = ']' ∨ close = '\x7d')
    (element : ∀ {p after b}, elements fuel p = .ok (b, after) → Found elements p after b)
    (again : ∀ {p after v s}, lists fuel p s = .ok (v, after) →
      Found (fun fuel p => lists fuel p s) p after v)
    (taken : lists (fuel + 1) p s = .ok (v, after)) :
    Found (fun fuel p => lists fuel p s) p after v := by
  have closer : closes close = true ∧ Place.isSpace close = false ∧ goesOn close = false ∧
      close ≠ ',' := by
    rcases closing with rfl | rfl
    all_goals decide
  obtain ⟨ended, bare, past, other⟩ := closer
  rw [step, listing] at taken
  obtain ⟨⟨b, next⟩, element_taken, rest_taken⟩ := bind_eq_ok_iff.mp taken
  obtain ⟨used, parts, framed, takes⟩ := element element_taken
  obtain ⟨space, isSpace, -, space_eq⟩ := exists_space next
  dsimp only at rest_taken
  by_cases closed : ∃ tail, next.skipSpace.rest = close :: tail
  · obtain ⟨tail, closed⟩ := closed
    rw [continued_closed closed] at rest_taken
    cases rest_taken
    refine ⟨used ++ (space ++ [close]), ?_, ⟨first_append framed.first _, ?_⟩,
      takes_last step takes isSpace bare past⟩
    · rw [parts, space_eq, closed, advance_one closed]
      simp
    · exact last_append (last_append ⟨close, rfl, ended⟩ space) used
  · by_cases comma : ∃ tail, next.skipSpace.rest = ',' :: tail
    · obtain ⟨tail, comma⟩ := comma
      rw [continued_comma comma other] at rest_taken
      obtain ⟨space', isSpace', -, space_eq'⟩ := exists_space (next.skipSpace.advance 1)
      obtain ⟨others, parts', framed', takes'⟩ := again rest_taken
      rw [advance_one comma, parts'] at space_eq'
      refine ⟨used ++ (space ++ ',' :: (space' ++ others)), ?_, ⟨first_append framed.first _, ?_⟩,
        takes_next step takes isSpace isSpace' other framed' takes'⟩
      · rw [parts, space_eq, comma, space_eq']
        simp
      · have last := last_append (last_append framed'.last space') [',']
        exact last_append (last_append last space) used
    · rw [continued_refused (fun tail same => closed ⟨tail, same⟩) fun tail same => comma ⟨tail, same⟩]
        at rest_taken
      cases rest_taken

end Steps

end Listings

section Nested

variable {fuel : Nat} {p after : Place} {v : Json} {space rest : List Char}

theorem readItems_eq (fuel : Nat) (p : Place) (read : List Json) :
    readItems (fuel + 1) p read =
      listing (readValue fuel) (readItems fuel) ']' List.cons (fun items => arr items.reverse) p read := by
  rw [readItems, listing]
  refine bind_congr fun result => ?_
  obtain ⟨item, after⟩ := result
  dsimp only
  split
  · rename_i closed
    rw [continued_closed closed]
    rfl
  · rename_i comma
    exact (continued_comma comma (by decide)).symm
  · rename_i closed comma
    exact (continued_refused closed comma).symm

def readMemberValue (fuel : Nat) (name : String) (mark : Place) : Except ReadError ((String × Json) × Place) :=
  match mark.rest with
  | ':' :: _ =>
    readValue fuel (mark.advance 1).skipSpace >>= fun (value, after) => .ok ((name, value), after)
  | _ => mark.error .colon

def readMember (fuel : Nat) (p : Place) : Except ReadError ((String × Json) × Place) :=
  match p.rest with
  | '"' :: _ =>
    readText p.offset (p.rest.length + 1) (p.advance 1) [] >>= fun (name, after) =>
      readMemberValue fuel name after.skipSpace
  | _ => p.error .memberName

theorem readMember_text (fuel offset : Nat) (cs : List Char) :
    readMember fuel ⟨offset, '"' :: cs⟩ =
      readText offset (cs.length + 2) ⟨offset + 1, cs⟩ [] >>= fun (name, after) =>
        readMemberValue fuel name after.skipSpace :=
  rfl

theorem readMember_other (quote : ¬ ∃ cs, p.rest = '"' :: cs) :
    readMember fuel p = p.error .memberName := by
  unfold readMember
  split
  · rename_i cs same
    exact absurd ⟨cs, same⟩ quote
  · rfl

theorem readMemberValue_other {mark : Place} (colon : ¬ ∃ cs, mark.rest = ':' :: cs) (name : String) :
    readMemberValue fuel name mark = mark.error .colon := by
  unfold readMemberValue
  split
  · rename_i cs same
    exact absurd ⟨cs, same⟩ colon
  · rfl

theorem readMembers_eq (fuel : Nat) (p : Place) (read : Members) :
    readMembers (fuel + 1) p read =
      listing (readMember fuel) (readMembers fuel) '\x7d' (fun m read => setMember m.1 m.2 read) obj p
        read := by
  by_cases quote : ∃ cs, p.rest = '"' :: cs
  · obtain ⟨offset, rest⟩ := p
    obtain ⟨cs, rfl⟩ := quote
    rw [readMembers, listing, readMember_text, bind_assoc]
    refine bind_congr fun result => ?_
    obtain ⟨name, behind_name⟩ := result
    dsimp only
    generalize behind_name.skipSpace = mark
    by_cases colon : ∃ tail, mark.rest = ':' :: tail
    · obtain ⟨here, rest⟩ := mark
      obtain ⟨tail, rfl⟩ := colon
      change (readValue fuel _ >>= _) = (readValue fuel _ >>= _) >>= _
      rw [bind_assoc]
      refine bind_congr fun result => ?_
      obtain ⟨value, after⟩ := result
      dsimp only [bind, Except.bind]
      split
      · rename_i closed
        rw [continued_closed closed]
        rfl
      · rename_i comma
        exact (continued_comma comma (by decide)).symm
      · rename_i closed comma
        exact (continued_refused closed comma).symm
    · rw [readMemberValue_other colon]
      split
      · rename_i same
        exact absurd ⟨_, same⟩ colon
      · rfl
  · rw [listing, readMember_other quote, readMembers]
    split
    · rename_i cs same
      exact absurd ⟨cs, same⟩ quote
    · rfl

theorem readMember_named {name : String} {offset here : Nat} {cs tail : List Char}
    (isSpace : IsSpace space) (taken : readText offset (cs.length + 2) ⟨offset + 1, cs⟩ [] =
      .ok (name, ⟨here, space ++ ':' :: tail⟩)) :
    readMember fuel ⟨offset, '"' :: cs⟩ =
      readValue fuel (Place.skipSpace ⟨here + space.length + 1, tail⟩) >>= fun (v, after) =>
        .ok ((name, v), after) := by
  rw [readMember_text, taken]
  dsimp only [bind, Except.bind]
  rw [skipSpace_mark isSpace (by decide)]
  rfl

theorem takes_member {name : String} {text space' used : List Char} (ends : Ends text [] name)
    (isSpace : IsSpace space) (isSpace' : IsSpace space') (framed : Framed used)
    (takes : Takes readValue used v) :
    Takes readMember ('"' :: (text ++ (space ++ ':' :: (space' ++ used)))) (name, v) := by
  intro fuel offset rest enough halts
  simp only [List.length_append, List.length_cons] at enough ⊢
  have whole : '"' :: (text ++ (space ++ ':' :: (space' ++ used))) ++ rest =
      '"' :: (text ++ (space ++ ':' :: (space' ++ (used ++ rest)))) := by simp
  have name_read := ends.reads offset
    ((text ++ (space ++ ':' :: (space' ++ (used ++ rest)))).length + 2) (offset + 1)
    (space ++ ':' :: (space' ++ (used ++ rest))) (by rw [List.length_append]; omega)
  have value_read := takes fuel (offset + 1 + text.length + space.length + 1 + space'.length) rest
    (by omega) halts
  have there : offset + 1 + text.length + space.length + 1 + space'.length + used.length =
      offset + (text.length + (space.length + (space'.length + used.length + 1)) + 1) := by
    omega
  rw [whole, readMember_named isSpace name_read, skipSpace_append isSpace' (framed.halts rest),
    value_read, there]
  rfl

theorem found_member (value : ∀ {p after v}, readValue fuel p = .ok (v, after) → Found readValue p after v)
    {m : String × Json} (taken : readMember fuel p = .ok (m, after)) : Found readMember p after m := by
  obtain ⟨offset, cs⟩ := p
  by_cases quote : ∃ tail, cs = '"' :: tail
  · obtain ⟨tail, rfl⟩ := quote
    rw [readMember_text] at taken
    obtain ⟨⟨name, next⟩, name_taken, rest_taken⟩ := bind_eq_ok_iff.mp taken
    obtain ⟨text, text_eq, ends⟩ := readText_takes offset _ name_taken
    obtain ⟨space, isSpace, -, space_eq⟩ := exists_space next
    dsimp only at rest_taken
    unfold readMemberValue at rest_taken
    split at rest_taken
    · rename_i colon_tail colon
      obtain ⟨⟨v, last⟩, value_taken, same⟩ := bind_eq_ok_iff.mp rest_taken
      cases same
      obtain ⟨space', isSpace', -, space_eq'⟩ := exists_space (next.skipSpace.advance 1)
      obtain ⟨used, used_eq, framed, takes⟩ := value value_taken
      rw [colon] at space_eq
      rw [advance_one colon, used_eq] at space_eq'
      refine ⟨'"' :: (text ++ (space ++ ':' :: (space' ++ used))), ?_, ⟨⟨'"', rfl, rfl⟩, ?_⟩,
        takes_member ends isSpace isSpace' framed takes⟩
      · dsimp only at text_eq
        rw [text_eq, space_eq, space_eq']
        simp
      · have last := last_append (last_append (last_append framed.last space') [':']) space
        exact last_append last ('"' :: text)
    · cases rest_taken
  · rw [readMember_other quote] at taken
    cases taken

def nested {σ : Type} (lists : Place → σ → Except ReadError (Json × Place)) (close : Char) (empty : Json)
    (s : σ) (next : Place) : Except ReadError (Json × Place) :=
  if next.rest.head? = some close then .ok (empty, next.advance 1) else lists next s

theorem nested_closed {σ : Type} {lists : Place → σ → Except ReadError (Json × Place)} {close : Char}
    {empty : Json} {s : σ} {next : Place} {tail : List Char} (closed : next.rest = close :: tail) :
    nested lists close empty s next = .ok (empty, next.advance 1) := by
  rw [nested, closed, List.head?_cons, if_pos rfl]

theorem nested_open {σ : Type} {lists : Place → σ → Except ReadError (Json × Place)} {close : Char}
    {empty : Json} {s : σ} {next : Place} (other : ∀ tail, next.rest ≠ close :: tail) :
    nested lists close empty s next = lists next s := by
  rw [nested, if_neg]
  intro first
  obtain ⟨tail, closed⟩ := List.head?_eq_some_iff.mp first
  exact other tail closed

theorem readValue_array (fuel offset : Nat) (cs : List Char) :
    readValue (fuel + 1) ⟨offset, '[' :: cs⟩ =
      nested (readItems fuel) ']' (arr []) [] (Place.skipSpace ⟨offset + 1, cs⟩) := by
  rw [readValue]
  split
  · rename_i same
    cases same
  · rename_i same
    cases same
  · dsimp only
    split
    · rename_i closed
      exact (nested_closed closed).symm
    · rename_i other
      exact (nested_open other).symm
  · rename_i same
    cases same
  · rename_i bracket _
    exact absurd rfl (bracket cs)

theorem readValue_object (fuel offset : Nat) (cs : List Char) :
    readValue (fuel + 1) ⟨offset, '\x7b' :: cs⟩ =
      nested (readMembers fuel) '\x7d' (obj []) [] (Place.skipSpace ⟨offset + 1, cs⟩) := by
  rw [readValue]
  split
  · rename_i same
    cases same
  · rename_i same
    cases same
  · rename_i same
    cases same
  · dsimp only
    split
    · rename_i closed
      exact (nested_closed closed).symm
    · rename_i other
      exact (nested_open other).symm
  · rename_i brace
    exact absurd rfl (brace cs)

section Steps

variable {σ : Type} {lists : Nat → Place → σ → Except ReadError (Json × Place)} {opening close : Char}
  {empty : Json} {s : σ} {used : List Char}
  (step : ∀ fuel offset cs, readValue (fuel + 1) ⟨offset, opening :: cs⟩ =
    nested (lists fuel) close empty s (Place.skipSpace ⟨offset + 1, cs⟩))

include step

theorem takes_empty (isSpace : IsSpace space) (bare : Place.isSpace close = false) :
    Takes readValue (opening :: (space ++ [close])) empty := by
  intro fuel offset rest enough _
  cases fuel with
  | zero => cases enough
  | succ fuel =>
      have whole : opening :: (space ++ [close]) ++ rest = opening :: (space ++ close :: rest) := by simp
      have there : offset + 1 + space.length + 1 = offset + (opening :: (space ++ [close])).length := by
        simp only [List.length_cons, List.length_append, List.length_nil]
        omega
      rw [whole, step, skipSpace_mark isSpace bare, nested_closed rfl, ← there]
      rfl

theorem takes_nested (isSpace : IsSpace space) (other : opens close = false) (framed : Framed used)
    (takes : Takes (fun fuel p => lists fuel p s) used v) :
    Takes readValue (opening :: (space ++ used)) v := by
  intro fuel offset rest enough halts
  cases fuel with
  | zero => cases enough
  | succ fuel =>
      simp only [List.length_cons, List.length_append] at enough ⊢
      have whole : opening :: (space ++ used) ++ rest = opening :: (space ++ (used ++ rest)) := by simp
      have there : offset + 1 + space.length + used.length =
          offset + (space.length + used.length + 1) := by
        omega
      have not_closed : ∀ tail, used ++ rest ≠ close :: tail := by
        obtain ⟨c, more, rfl, opens_c⟩ := framed.exists_cons
        rintro tail same
        cases same
        rw [other] at opens_c
        cases opens_c
      rw [whole, step, skipSpace_append isSpace (framed.halts rest), nested_open not_closed, ← there]
      exact takes fuel _ rest (by omega) halts

theorem found_nested {tail : List Char} (closing : close = ']' ∨ close = '\x7d')
    (opened : opens opening = true)
    (again : ∀ {p after v}, lists fuel p s = .ok (v, after) →
      Found (fun fuel p => lists fuel p s) p after v)
    (begins : p.rest = opening :: tail) (taken : readValue (fuel + 1) p = .ok (v, after)) :
    Found readValue p after v := by
  have closer : closes close = true ∧ Place.isSpace close = false ∧ opens close = false := by
    rcases closing with rfl | rfl
    all_goals decide
  obtain ⟨ended, bare, other⟩ := closer
  obtain ⟨offset, cs⟩ := p
  obtain rfl : cs = opening :: tail := begins
  rw [step, nested] at taken
  obtain ⟨space, isSpace, -, tail_eq⟩ := exists_space ⟨offset + 1, tail⟩
  generalize Place.skipSpace ⟨offset + 1, tail⟩ = next at taken tail_eq
  dsimp only at tail_eq
  split at taken
  · rename_i first
    obtain ⟨others, closed⟩ := List.head?_eq_some_iff.mp first
    cases taken
    refine ⟨opening :: (space ++ [close]), ?_, ⟨⟨opening, rfl, opened⟩, ?_⟩,
      takes_empty step isSpace bare⟩
    · rw [tail_eq, closed, advance_one closed]
      simp
    · exact last_append ⟨close, rfl, ended⟩ (opening :: space)
  · obtain ⟨used, used_eq, framed, takes⟩ := again taken
    refine ⟨opening :: (space ++ used), ?_, ⟨⟨opening, rfl, opened⟩, ?_⟩,
      takes_nested step isSpace other framed takes⟩
    · rw [tail_eq, used_eq]
      simp
    · exact last_append framed.last (opening :: space)

end Steps

end Nested

section Documents

structure Local (fuel : Nat) : Prop where
  value : ∀ {p after v}, readValue fuel p = .ok (v, after) → Found readValue p after v
  items : ∀ {p after v read}, readItems fuel p read = .ok (v, after) →
    Found (fun fuel p => readItems fuel p read) p after v
  members : ∀ {p after v read}, readMembers fuel p read = .ok (v, after) →
    Found (fun fuel p => readMembers fuel p read) p after v

theorem found_value {fuel : Nat} (inner : Local fuel) {p after : Place} {v : Json}
    (taken : readValue (fuel + 1) p = .ok (v, after)) : Found readValue p after v := by
  have whole := taken
  rw [readValue] at taken
  split at taken
  · cases taken
  · rename_i quote
    obtain ⟨⟨s, next⟩, text_taken, same⟩ := bind_eq_ok_iff.mp taken
    cases same
    exact found_text quote text_taken
  · rename_i bracket
    exact found_nested readValue_array (Or.inl rfl) (by decide) inner.items bracket whole
  · rename_i brace
    exact found_nested readValue_object (Or.inr rfl) (by decide) inner.members brace whole
  · split at taken
    · rename_i result word
      obtain ⟨v', after'⟩ := result
      cases taken
      exact found_word word
    · exact found_number taken

theorem local_all (fuel : Nat) : Local fuel := by
  -- A list is read with less fuel than the value it is, and its items with less than the list, so
  -- values, items and members are settled together.
  induction fuel with
  | zero =>
      refine ⟨?_, ?_, ?_⟩
      all_goals
        intros
        rename_i taken
        cases taken
  | succ fuel ih =>
      refine ⟨found_value ih, ?_, ?_⟩
      · intro p after v read taken
        exact found_listing readItems_eq (Or.inl rfl) ih.value ih.items taken
      · intro p after v read taken
        exact found_listing readMembers_eq (Or.inr rfl) (found_member ih.value) ih.members taken

/-- A document is one value with space around it, and that value is read in the same way without the
space. -/
theorem read_framed {text : List Char} {v : Json} (taken : read text = .ok v) :
    ∃ before used after, text = before ++ (used ++ after) ∧ IsSpace before ∧ IsSpace after ∧
      Framed used ∧ read used = .ok v := by
  unfold read at taken
  split at taken
  · cases taken
  · obtain ⟨⟨value, next⟩, value_taken, taken⟩ := bind_eq_ok_iff.mp taken
    dsimp only at taken
    split at taken
    · rename_i ended
      cases taken
      obtain ⟨before, isSpace, -, text_eq⟩ := exists_space ⟨0, text⟩
      obtain ⟨used, parts, framed, takes⟩ := (local_all _).value value_taken
      obtain ⟨after, isSpace', -, next_eq⟩ := exists_space next
      rw [List.isEmpty_iff.mp ended, List.append_nil] at next_eq
      rw [parts, next_eq] at text_eq
      refine ⟨before, used, after, text_eq, isSpace, isSpace', framed, ?_⟩
      have bare : Place.skipSpace ⟨0, used⟩ = ⟨0, used⟩ := by
        have halts := framed.halts []
        rw [List.append_nil] at halts
        exact skipSpace_append isSpace_nil halts 0
      have read_used := takes (2 * used.length + 2) 0 [] (by omega) (fun c mem => by cases mem)
      rw [List.append_nil] at read_used
      have no_mark : used.head? ≠ some '\ufeff' := by
        obtain ⟨c, more, rfl, opened⟩ := framed.exists_cons
        rintro same
        cases same
        cases opened
      rw [read, if_neg no_mark, bare, read_used]
      rfl
    · cases taken

end Documents

section Refusals

variable {fuel : Nat} {p : Place} {e : ReadError} {cs rest : List Char}

def LongNumber (cs : List Char) : Prop :=
  ∃ digits, digits <:+: cs ∧ IsDigits digits ∧ maxDigits < digits.length

theorem LongNumber.of_suffix (long : LongNumber rest) (behind : rest <:+ cs) : LongNumber cs := by
  obtain ⟨digits, inside, isDigits, many⟩ := long
  exact ⟨digits, inside.trans behind.isInfix, isDigits, many⟩

theorem skipSpace_suffix (p : Place) : p.skipSpace.rest <:+ p.rest := by
  obtain ⟨space, -, -, parts⟩ := exists_space p
  exact ⟨space, parts.symm⟩

theorem advance_suffix (p : Place) (n : Nat) : (p.advance n).rest <:+ p.rest := List.drop_suffix n p.rest

theorem Found.suffix {α : Type} {read : Nat → Place → Except ReadError (α × Place)} {after : Place} {a : α}
    (found : Found read p after a) : after.rest <:+ p.rest := by
  obtain ⟨used, parts, -⟩ := found
  exact ⟨used, parts.symm⟩

theorem readUnit_cause (refused : readUnit p = .error e) : e.cause = .unicodeEscape := by
  unfold readUnit at refused
  dsimp only at refused
  split at refused
  · cases refused
    rfl
  · split at refused
    · cases refused
      rfl
    · split at refused
      · split at refused
        · split at refused
          · cases refused
          · split at refused
            · cases refused
              rfl
            · split at refused
              · cases refused
              · cases refused
        · cases refused
      · cases refused

theorem readText_cause (start fuel : Nat) : ∀ {p : Place} {read : List Char},
    readText start fuel p read = .error e →
      e.cause ∈ [.unterminated, .controlCharacter, .escape, .unicodeEscape] := by
  induction fuel with
  | zero =>
      intro p read refused
      cases refused
      simp
  | succ fuel ih =>
      intro p read refused
      rw [readText] at refused
      split at refused
      · cases refused
        simp
      · cases refused
      · cases refused
        simp
      · rcases bind_eq_error_iff.mp refused with unit | ⟨result, -, later⟩
        · simp [readUnit_cause unit]
        · exact ih later
      · split at refused
        · exact ih refused
        · cases refused
          simp
      · split at refused
        · cases refused
          simp
        · exact ih refused

theorem readNumber_cause (refused : readNumber p = .error e) (many : e.cause = .tooManyDigits) :
    LongNumber p.rest := by
  obtain ⟨sign, whole, fraction, exponent, rest, -, shape, -, -, parts, number_eq⟩ := exists_parts p
  rw [number_eq] at refused
  cases found : numberOf sign whole fraction exponent with
  | ok v =>
      rw [found] at refused
      cases refused
  | error cause =>
      rw [found] at refused
      cases refused
      cases many
      have long := numberOf_cause found
      have some : whole ≠ [] := by
        rintro rfl
        cases long
      exact ⟨whole, ⟨sign, fraction ++ (exponent ++ rest), by simp [parts]⟩, digit_of_whole (shape some), long⟩

structure Refuses (fuel : Nat) : Prop where
  value : ∀ {p e}, readValue fuel p = .error e → e.cause = .tooManyDigits → LongNumber p.rest
  items : ∀ {p e read}, readItems fuel p read = .error e → e.cause = .tooManyDigits → LongNumber p.rest
  members : ∀ {p e read}, readMembers fuel p read = .error e → e.cause = .tooManyDigits →
    LongNumber p.rest

theorem listing_cause {β σ : Type} {elements : Nat → Place → Except ReadError (β × Place)}
    {again : Place → σ → Except ReadError (Json × Place)} {close : Char} {push : β → σ → σ}
    {finish : σ → Json} {s : σ}
    (found : ∀ {p after b}, elements fuel p = .ok (b, after) → Found elements p after b)
    (first : ∀ {p e}, elements fuel p = .error e → e.cause = .tooManyDigits → LongNumber p.rest)
    (others : ∀ {p e s}, again p s = .error e → e.cause = .tooManyDigits → LongNumber p.rest)
    (refused : listing (elements fuel) again close push finish p s = .error e)
    (many : e.cause = .tooManyDigits) : LongNumber p.rest := by
  rcases bind_eq_error_iff.mp refused with element | ⟨⟨b, next⟩, taken, later⟩
  · exact first element many
  · dsimp only at later
    unfold continued at later
    split at later
    · cases later
    · split at later
      · have long := others later many
        have behind := (skipSpace_suffix _).trans ((advance_suffix next.skipSpace 1).trans
          (skipSpace_suffix next))
        exact long.of_suffix (behind.trans (found taken).suffix)
      · cases later
        cases many

theorem readMember_cause (value : ∀ {p e}, readValue fuel p = .error e → e.cause = .tooManyDigits →
    LongNumber p.rest) (refused : readMember fuel p = .error e) (many : e.cause = .tooManyDigits) :
    LongNumber p.rest := by
  unfold readMember at refused
  split at refused
  · rcases bind_eq_error_iff.mp refused with name | ⟨⟨name, next⟩, taken, later⟩
    · have cause := readText_cause _ _ name
      simp [many] at cause
    · dsimp only [readMemberValue] at later
      split at later
      · rcases bind_eq_error_iff.mp later with failed | ⟨result, -, done⟩
        · obtain ⟨used, parts, -⟩ := readText_takes _ _ taken
          have behind := (skipSpace_suffix _).trans ((advance_suffix next.skipSpace 1).trans
            (skipSpace_suffix next))
          have whole := (behind.trans ⟨used, parts.symm⟩).trans (advance_suffix p 1)
          exact (value failed many).of_suffix whole
        · cases done
      · cases later
        cases many
  · cases refused
    cases many

theorem readValue_cause (inner : Refuses fuel) (refused : readValue (fuel + 1) p = .error e)
    (many : e.cause = .tooManyDigits) : LongNumber p.rest := by
  have behind := (skipSpace_suffix (p.advance 1)).trans (advance_suffix p 1)
  rw [readValue] at refused
  split at refused
  · cases refused
    cases many
  · rcases bind_eq_error_iff.mp refused with text | ⟨result, -, done⟩
    · have cause := readText_cause _ _ text
      simp [many] at cause
    · cases done
  · dsimp only at refused
    split at refused
    · cases refused
    · exact (inner.items refused many).of_suffix behind
  · dsimp only at refused
    split at refused
    · cases refused
    · exact (inner.members refused many).of_suffix behind
  · split at refused
    · cases refused
    · exact readNumber_cause refused many

theorem refuses_all (fuel : Nat) : Refuses fuel := by
  induction fuel with
  | zero =>
      refine ⟨?_, ?_, ?_⟩
      all_goals
        intros
        rename_i refused many
        cases refused
        cases many
  | succ fuel ih =>
      refine ⟨readValue_cause ih, ?_, ?_⟩
      · intro p e read refused many
        rw [readItems_eq] at refused
        exact listing_cause (local_all fuel).value ih.value ih.items refused many
      · intro p e read refused many
        rw [readMembers_eq] at refused
        exact listing_cause (found_member (local_all fuel).value) (readMember_cause ih.value) ih.members
          refused many

theorem read_cause {text : List Char} (refused : read text = .error e)
    (many : e.cause = .tooManyDigits) : LongNumber text := by
  unfold read at refused
  split at refused
  · cases refused
    cases many
  · rcases bind_eq_error_iff.mp refused with value | ⟨result, -, later⟩
    · exact ((refuses_all _).value value many).of_suffix (skipSpace_suffix ⟨0, text⟩)
    · dsimp only at later
      split at later
      · cases later
      · cases later
        cases many

theorem readNumber_long {digits : List Char} (isWhole : IsWhole digits) (many : maxDigits < digits.length)
    (halts : Halts goesOn rest) (offset : Nat) :
    readNumber ⟨offset, digits ++ rest⟩ = .error ⟨.tooManyDigits, offset⟩ := by
  have some : digits.isEmpty = false := by
    cases digits with
    | nil => cases many
    | cons d digits => rfl
  have number : numberOf [] digits [] [] = .error .tooManyDigits := by
    simp [numberOf, some, many]
  have read := readNumber_append (Or.inl rfl) isWhole (Or.inl rfl) (Or.inl rfl) halts offset
  rw [number] at read
  exact read

theorem readValue_long {digits : List Char} (isWhole : IsWhole digits) (many : maxDigits < digits.length)
    (halts : Halts goesOn rest) (fuel offset : Nat) :
    readValue (fuel + 1) ⟨offset, digits ++ rest⟩ = .error ⟨.tooManyDigits, offset⟩ := by
  have number : IsNumeral digits := ⟨[], digits, [], [], Or.inl rfl, isWhole, Or.inl rfl, Or.inl rfl, by simp⟩
  have no_word := readWord?_number number offset rest
  have refused := readNumber_long isWhole many halts offset
  obtain ⟨d, more, rfl, start⟩ := number.starts
  rw [List.cons_append] at no_word refused ⊢
  rw [readValue_plain (other_of_starts start), no_word]
  exact refused

/-- A number that is too long ends the reading, also as the value of a member that a later one of the same
name would replace. -/
theorem read_longMember {digits : List Char} (isWhole : IsWhole digits)
    (many : maxDigits < digits.length) (halts : Halts goesOn rest) :
    read ("\x7b\"n\": ".toList ++ (digits ++ rest)) = .error ⟨.tooManyDigits, 6⟩ := by
  have one_space : IsSpace [' '] := fun c mem => by
    cases List.mem_singleton.mp mem
    decide
  have bare : Halts Place.isSpace (digits ++ rest) :=
    (digit_of_whole isWhole).halts fun c digit => not_isSpace_of_opens (by rw [opens, digit, Bool.true_or])
  have named : readText 1 ((digits ++ rest).length + 6)
      ⟨2, 'n' :: '"' :: ':' :: ' ' :: (digits ++ rest)⟩ [] =
        .ok (String.ofList ['n'], ⟨4, [] ++ ':' :: ' ' :: (digits ++ rest)⟩) := rfl
  have behind := skipSpace_append one_space bare 5
  have member (fuel : Nat) :
      readMember (fuel + 1) ⟨1, '"' :: 'n' :: '"' :: ':' :: ' ' :: (digits ++ rest)⟩ =
        .error ⟨.tooManyDigits, 6⟩ := by
    rw [readMember_named isSpace_nil named]
    change readValue (fuel + 1) (Place.skipSpace ⟨5, [' '] ++ (digits ++ rest)⟩) >>= _ = _
    rw [behind, readValue_long isWhole many halts]
    rfl
  have value (fuel : Nat) : readValue (fuel + 3)
      ⟨0, '\x7b' :: '"' :: 'n' :: '"' :: ':' :: ' ' :: (digits ++ rest)⟩ =
        .error ⟨.tooManyDigits, 6⟩ := by
    change readMembers (fuel + 2) ⟨1, '"' :: 'n' :: '"' :: ':' :: ' ' :: (digits ++ rest)⟩ [] = _
    rw [readMembers_eq, listing, member]
    rfl
  change (readValue (2 * (digits ++ rest).length + 11 + 3)
    ⟨0, '\x7b' :: '"' :: 'n' :: '"' :: ':' :: ' ' :: (digits ++ rest)⟩ >>= _) = _
  rw [value]
  rfl

end Refusals

end Groundwork.Json
