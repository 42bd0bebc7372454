import Groundwork.Proofs.Store.Nearest

/-!
The store as a map. Calls that put in records, count and search them, drop a namespace and list the
namespaces are answered as by one map for each table, from ids to the records put in last. The listing
cuts this short: of a table that it does not show nothing is seen, and records are put into it only as
long as it is not there.
-/

namespace Groundwork.Store

open Retrieval

inductive Call where
  | upsert (nspace : String) (records : List TextRecord)
  | delete (nspace : String)
  | count (nspace : String)
  | query (nspace : String) (vector : Vector64) (topK : Int) (filter : Filter)
  | list

inductive Answer where
  | number (n : Nat)
  | dropped (wasThere : Bool)
  | hits (found : List (Hit Float))
  | names (all : List String)

/-- The answer to a call and the database after it, which is as before if the call fails. -/
def Call.perform (db : Database) : Call → Except Failure Answer × Database
  | upsert nspace records => match Store.upsert db nspace records with
    | .ok (n, later) => (.ok (.number n), later)
    | .error failure => (.error failure, db)
  | delete nspace => match Store.delete db nspace with
    | .ok (wasThere, later) => (.ok (.dropped wasThere), later)
    | .error failure => (.error failure, db)
  | count nspace => ((countRows db nspace).map .number, db)
  | query nspace vector topK filter => ((Store.query db nspace vector topK filter).map .hits, db)
  | list => (.ok (.names (namespaces db)), db)

def performAll (db : Database) : List Call → List (Except Failure Answer) × Database
  | [] => ([], db)
  | call :: calls =>
    let (answer, later) := call.perform db
    let (answers, last) := performAll later calls
    (answer :: answers, last)

abbrev Contents := Finmap fun _ : String => Shelf

section Specification

variable (shown : String → Bool) (dimension : String → Nat)

def Contents.seen (c : Contents) (name : String) : Option Shelf :=
  if shown name then c.lookup name else none

/-- Whether records cannot be put into a table, because it is there and not shown. -/
def Contents.IsShut (c : Contents) (name : String) : Prop := name ∈ c ∧ shown name = false

instance (c : Contents) (name : String) : Decidable (c.IsShut shown name) :=
  inferInstanceAs (Decidable (_ ∧ _))

def Contents.after (c : Contents) : Call → Contents
  | .upsert nspace records =>
    if records = [] ∨ c.IsShut shown (cleanName nspace) then c
    else c.insert (cleanName nspace) (((c.lookup (cleanName nspace)).getD ∅).put records)
  | .delete nspace =>
    if (c.seen shown (cleanName nspace)).isSome then c.erase (cleanName nspace) else c
  | _ => c

def Responds (c : Contents) : Call → Except Failure Answer → Prop
  | .upsert nspace records, answer => answer =
    if records ≠ [] ∧ c.IsShut shown (cleanName nspace) then .error (upsertFailed nspace)
    else .ok (.number records.length)
  | .delete nspace, answer => answer = .ok (.dropped (c.seen shown (cleanName nspace)).isSome)
  | .count nspace, answer => answer = .ok (.number
    (((c.seen shown (cleanName nspace)).getD ∅).keys.card))
  | .query nspace vector topK filter, answer => match c.seen shown (cleanName nspace) with
    | none => answer = .ok (.hits [])
    | some s => match badColumn? filter with
      | some column => answer = .error (.store (.unsupportedColumn column))
      | none =>
        if dimension (cleanName nspace) = vector.length ∧ 0 < topK then
          ∃ hits, answer = .ok (.hits hits) ∧ Nearest s vector topK.toNat filter hits
        else answer = .error (queryFailed nspace)
  | .list, answer => ∃ all, answer = .ok (.names all) ∧ all.Pairwise (· < ·) ∧
    ∀ name, name ∈ all ↔ shown name = true ∧ ∃ s, c.lookup name = some s ∧ s ≠ ∅

end Specification

def Conforms (shown : Contents → String → Bool) (dimension : String → Nat) :
    Contents → List Call → List (Except Failure Answer) → Prop
  | _, [], [] => True
  | c, call :: calls, answer :: answers => Responds (shown c) dimension c call answer ∧
    Conforms shown dimension (c.after (shown c) call) calls answers
  | _, _, _ => False

def Contents.afterAll (shown : Contents → String → Bool) (c : Contents) (calls : List Call) :
    Contents :=
  calls.foldl (fun c call => c.after (shown c) call) c

theorem Conforms.last {shown : Contents → String → Bool} {dimension : String → Nat} {c : Contents}
    {calls : List Call} {last : Call} {answers : List (Except Failure Answer)}
    (conforms : Conforms shown dimension c (calls ++ [last]) answers) :
    ∃ answer, answers.getLast? = some answer ∧
      Responds (shown (c.afterAll shown calls)) dimension (c.afterAll shown calls) last answer := by
  induction calls generalizing c answers with
  | nil =>
      match answers, conforms with
      | [answer], ⟨responds, _⟩ => exact ⟨answer, rfl, responds⟩
  | cons call calls ih =>
      match answers, conforms with
      | first :: answers, ⟨_, later⟩ =>
          obtain ⟨answer, isLast, responds⟩ := ih later
          exact ⟨answer, by rw [List.getLast?_cons, isLast]; rfl, responds⟩

def Named (nspace : String) : Prop := cleanName nspace ≠ "" ∧ cleanName nspace ≠ infoTable

instance (nspace : String) : Decidable (Named nspace) := inferInstanceAs (Decidable (_ ∧ _))

/-- Records that are put in together have ids of their own and vectors of the dimension of the table. -/
def Call.InScope (dimension : String → Nat) : Call → Prop
  | upsert nspace records => Named nspace ∧ (records.map (·.id)).Nodup ∧
    OfDimension (dimension (cleanName nspace)) records
  | delete nspace => Named nspace
  | count nspace => Named nspace
  | query nspace _ _ _ => Named nspace
  | list => True

instance (dimension : String → Nat) : (call : Call) → Decidable (call.InScope dimension)
  | .upsert _ _ => inferInstanceAs (Decidable (_ ∧ _ ∧ _))
  | .delete nspace | .count nspace | .query nspace _ _ _ => inferInstanceAs (Decidable (Named nspace))
  | .list => .isTrue trivial

def Contents.tables (indexed : Bool) (c : Contents) : Finset String :=
  if indexed then insert infoTable c.keys else c.keys

/-- Whether the listing shows a table: few enough names stand before its own. -/
def Contents.listed (indexed : Bool) (c : Contents) (name : String) : Bool :=
  ((c.tables indexed).filter (· < name)).card < listingLimit

structure Holds (indexed : Bool) (dimension : String → Nat) (c : Contents) (db : Database) : Prop where
  once : (names db).Nodup
  tables : ∀ name, name ∈ names db ↔ name ∈ c.tables indexed
  apart : infoTable ∉ c
  stocked : ∀ name s, c.lookup name = some s → s ≠ ∅
  lists : ∀ name s, c.lookup name = some s →
    ∃ rows, db.lookup name = some (.rows (dimension name) rows) ∧ Lists s rows

section Steps

variable {indexed : Bool} {dimension : String → Nat} {c : Contents} {db : Database} {nspace : String}
  {name : String} {s : Shelf} {rows : List Row} {records : List TextRecord}

theorem tableName_of_named (named : Named nspace) : tableName nspace = .ok (cleanName nspace) := by
  rw [tableName]
  exact if_neg fun empty => named.1 (String.isEmpty_iff.mp empty)

theorem mem_tables_of_ne (other : name ≠ infoTable) : name ∈ c.tables indexed ↔ name ∈ c := by
  unfold Contents.tables
  split
  · simp [other, Finmap.mem_keys]
  · exact Finmap.mem_keys

theorem tables_insert (name : String) (s : Shelf) :
    Contents.tables indexed (c.insert name s) = insert name (c.tables indexed) := by
  have keys : (c.insert name s).keys = insert name c.keys := by
    ext other
    rw [Finset.mem_insert, Finmap.mem_keys, Finmap.mem_insert, Finmap.mem_keys]
  unfold Contents.tables
  split
  · rw [keys, Finset.insert_comm]
  · exact keys

theorem tables_erase (other : name ≠ infoTable) :
    Contents.tables indexed (c.erase name) = (c.tables indexed).erase name := by
  unfold Contents.tables
  split
  · rw [Finmap.keys_erase, Finset.erase_insert_of_ne other.symm]
  · exact Finmap.keys_erase _ _

theorem seen_eq_some_iff {shown : String → Bool} :
    c.seen shown name = some s ↔ shown name = true ∧ c.lookup name = some s := by
  rw [Contents.seen]
  exact Option.ite_none_right_eq_some

theorem lookup_of_erase {query : String} (found : Finmap.lookup query (c.erase name) = some s) :
    query ≠ name ∧ c.lookup query = some s := by
  have different : query ≠ name := by
    rintro rfl
    rw [Finmap.lookup_erase] at found
    simp at found
  exact ⟨different, Finmap.lookup_erase_ne different ▸ found⟩

namespace Holds

theorem listed_iff (holds : Holds indexed dimension c db) :
    name ∈ Store.listed db ↔ name ∈ c.tables indexed ∧ c.listed indexed name = true := by
  have all : (names db).toFinset = c.tables indexed := by
    ext other
    rw [List.mem_toFinset, holds.tables]
  have before : (names db).countP (· < name) = ((c.tables indexed).filter (· < name)).card := by
    rw [← all, List.countP_eq_length_filter, ← List.toFinset_card_of_nodup (holds.once.filter _)]
    congr 1
    ext other
    simp
  rw [mem_listed_iff, holds.tables, before, Contents.listed, decide_eq_true_iff]

theorem mem_names_iff (holds : Holds indexed dimension c db) (other : name ≠ infoTable) :
    name ∈ names db ↔ name ∈ c := by
  rw [holds.tables, mem_tables_of_ne other]

theorem seen_isSome (holds : Holds indexed dimension c db) (other : name ≠ infoTable) :
    (c.seen (c.listed indexed) name).isSome = true ↔ name ∈ Store.listed db := by
  rw [holds.listed_iff, mem_tables_of_ne other, Option.isSome_iff_exists, Finmap.mem_iff]
  simp only [seen_eq_some_iff, exists_and_left, and_comm]

theorem open?_none (holds : Holds indexed dimension c db) (other : name ≠ infoTable)
    (unseen : c.seen (c.listed indexed) name = none) : open? db name = none := by
  rw [open?_eq, if_neg]
  rw [← holds.seen_isSome other, unseen]
  exact Bool.false_ne_true

theorem open?_some (holds : Holds indexed dimension c db) (other : name ≠ infoTable)
    (seen : c.seen (c.listed indexed) name = some s) :
    ∃ rows, open? db name = some (.rows (dimension name) rows) ∧ Lists s rows := by
  obtain ⟨rows, found, lists⟩ := holds.lists name s (seen_eq_some_iff.mp seen).2
  have isListed : name ∈ Store.listed db := by
    rw [← holds.seen_isSome other, seen]
    rfl
  exact ⟨rows, by rw [open?_eq, if_pos isListed, found], lists⟩

theorem insert (holds : Holds indexed dimension c db) (other : name ≠ infoTable) (stocked : s ≠ ∅)
    (lists : Lists s rows) :
    Holds indexed dimension (c.insert name s) (setEntry name (.rows (dimension name) rows) db) where
  once := by
    rw [names_setEntry]
    split
    · exact holds.once
    · rename_i new
      exact holds.once.append (List.nodup_singleton _) (List.disjoint_singleton.mpr new)
  tables query := by
    rw [names_setEntry, tables_insert, Finset.mem_insert, ← holds.tables]
    split
    · rename_i known
      exact ⟨Or.inr, fun among => among.elim (fun same => same ▸ known) id⟩
    · rw [List.mem_append, List.mem_singleton, or_comm]
  apart := by
    rw [Finmap.mem_insert]
    exact fun either => either.elim (fun same => other same.symm) holds.apart
  stocked query kept found := by
    by_cases same : query = name
    · subst same
      rw [Finmap.lookup_insert, Option.some.injEq] at found
      exact found ▸ stocked
    · rw [Finmap.lookup_insert_of_ne _ same] at found
      exact holds.stocked query kept found
  lists query kept found := by
    rw [lookup_setEntry]
    by_cases same : query = name
    · subst same
      rw [Finmap.lookup_insert, Option.some.injEq] at found
      exact ⟨rows, if_pos rfl, found ▸ lists⟩
    · rw [Finmap.lookup_insert_of_ne _ same] at found
      rw [if_neg same]
      exact holds.lists query kept found

theorem erase (holds : Holds indexed dimension c db) (other : name ≠ infoTable) :
    Holds indexed dimension (c.erase name) (db.filter (·.1 != name)) where
  once := by
    rw [names_filter]
    exact holds.once.filter _
  tables query := by
    rw [names_filter, tables_erase other, List.mem_filter, Finset.mem_erase, ← holds.tables,
      bne_iff_ne, and_comm]
  apart := by
    rw [Finmap.mem_erase]
    exact fun both => holds.apart both.2
  stocked query kept found := holds.stocked query kept (lookup_of_erase found).2
  lists query kept found := by
    obtain ⟨different, before⟩ := lookup_of_erase found
    rw [lookup_filter_of_ne different]
    exact holds.lists query kept before

theorem upsert_shut (holds : Holds indexed dimension c db) (named : Named nspace)
    (fits : OfDimension (dimension (cleanName nspace)) records) (filled : records ≠ [])
    (shut : c.IsShut (c.listed indexed) (cleanName nspace)) :
    Store.upsert db nspace records = .error (upsertFailed nspace) := by
  have unseen : c.seen (c.listed indexed) (cleanName nspace) = none := by
    rw [Contents.seen, shut.2]
    rfl
  have isThere : (db.lookup (cleanName nspace)).isSome = true := by
    rw [isSome_lookup_iff, holds.mem_names_iff named.2]
    exact shut.1
  rw [upsert_eq (tableName_of_named named) fits filled, holds.open?_none named.2 unseen]
  exact if_pos isThere

theorem upsert_open (holds : Holds indexed dimension c db) (named : Named nspace)
    (once : (records.map (·.id)).Nodup)
    (fits : OfDimension (dimension (cleanName nspace)) records) (filled : records ≠ [])
    (isOpen : ¬ c.IsShut (c.listed indexed) (cleanName nspace)) :
    ∃ later, Store.upsert db nspace records = .ok (records.length, later) ∧
      Holds indexed dimension (c.insert (cleanName nspace)
        (((c.lookup (cleanName nspace)).getD ∅).put records)) later := by
  rw [upsert_eq (tableName_of_named named) fits filled]
  cases kept : c.lookup (cleanName nspace) with
  | none =>
      have unseen : c.seen (c.listed indexed) (cleanName nspace) = none := by
        rw [Contents.seen, kept, ite_self]
      have absent : ¬ (db.lookup (cleanName nspace)).isSome = true := by
        rw [isSome_lookup_iff, holds.mem_names_iff named.2, ← Finmap.lookup_eq_none]
        exact kept
      rw [holds.open?_none named.2 unseen]
      exact ⟨_, if_neg absent,
        holds.insert named.2 (Shelf.put_ne_empty ∅ filled) (Lists.nil.merge once)⟩
  | some s =>
      have member : cleanName nspace ∈ c := Finmap.mem_iff.mpr ⟨s, kept⟩
      have isShown : c.listed indexed (cleanName nspace) = true :=
        (Bool.not_eq_false _).mp fun hidden => isOpen ⟨member, hidden⟩
      obtain ⟨rows, opened, lists⟩ := holds.open?_some named.2 (seen_eq_some_iff.mpr ⟨isShown, kept⟩)
      rw [opened]
      exact ⟨_, if_pos rfl, holds.insert named.2 (Shelf.put_ne_empty s filled) (lists.merge once)⟩

theorem upsert (holds : Holds indexed dimension c db)
    (inScope : (Call.upsert nspace records).InScope dimension) :
    Responds (c.listed indexed) dimension c (.upsert nspace records)
        ((Call.upsert nspace records).perform db).1 ∧
      Holds indexed dimension (c.after (c.listed indexed) (.upsert nspace records))
        ((Call.upsert nspace records).perform db).2 := by
  obtain ⟨named, once, fits⟩ := inScope
  simp only [Responds, Contents.after, Call.perform]
  by_cases filled : records = []
  · subst filled
    simpa [Store.upsert] using holds
  · by_cases shut : c.IsShut (c.listed indexed) (cleanName nspace)
    · rw [holds.upsert_shut named fits filled shut, if_pos ⟨filled, shut⟩, if_pos (Or.inr shut)]
      exact ⟨rfl, holds⟩
    · obtain ⟨later, put, kept⟩ := holds.upsert_open named once fits filled shut
      rw [put, if_neg fun both => shut both.2, if_neg (not_or.mpr ⟨filled, shut⟩)]
      exact ⟨rfl, kept⟩

theorem delete (holds : Holds indexed dimension c db) (named : Named nspace) :
    Responds (c.listed indexed) dimension c (.delete nspace) ((Call.delete nspace).perform db).1 ∧
      Holds indexed dimension (c.after (c.listed indexed) (.delete nspace))
        ((Call.delete nspace).perform db).2 := by
  have isListed := holds.seen_isSome named.2
  have dropped : Store.delete db nspace =
      if cleanName nspace ∈ Store.listed db then .ok (true, db.filter (·.1 != cleanName nspace))
      else .ok (false, db) := by
    simp [Store.delete, tableName_of_named named, bind, Except.bind, pure, Except.pure]
  simp only [Responds, Contents.after, Call.perform, dropped]
  by_cases isSeen : (c.seen (c.listed indexed) (cleanName nspace)).isSome = true
  · rw [if_pos (isListed.mp isSeen), if_pos isSeen, isSeen]
    exact ⟨rfl, holds.erase named.2⟩
  · rw [if_neg (mt isListed.mpr isSeen), if_neg isSeen, Bool.eq_false_of_not_eq_true isSeen]
    exact ⟨rfl, holds⟩

theorem count (holds : Holds indexed dimension c db) (named : Named nspace) :
    Responds (c.listed indexed) dimension c (.count nspace) ((Call.count nspace).perform db).1 := by
  simp only [Responds, Call.perform, countRows_eq (tableName_of_named named)]
  cases seen : c.seen (c.listed indexed) (cleanName nspace) with
  | none =>
      rw [holds.open?_none named.2 seen]
      rfl
  | some s =>
      obtain ⟨rows, opened, lists⟩ := holds.open?_some named.2 seen
      rw [opened, Option.getD_some, ← lists.length]
      rfl

theorem query (holds : Holds indexed dimension c db) (named : Named nspace) (vector : Vector64)
    (topK : Int) (filter : Filter) :
    Responds (c.listed indexed) dimension c (.query nspace vector topK filter)
      ((Call.query nspace vector topK filter).perform db).1 := by
  simp only [Responds, Call.perform, Store.query, tableName_of_named named, bind, Except.bind]
  cases seen : c.seen (c.listed indexed) (cleanName nspace) with
  | none =>
      rw [holds.open?_none named.2 seen]
      rfl
  | some s =>
      obtain ⟨rows, opened, lists⟩ := holds.open?_some named.2 seen
      simp only [opened, condition?]
      cases bad : badColumn? filter with
      | some column => rfl
      | none =>
          by_cases fits : dimension (cleanName nspace) = vector.length ∧ 0 < topK
          · simp only [if_pos fits]
            refine ⟨_, ?_, lists.nearest vector topK.toNat filter⟩
            cases filter.isEmpty <;> rfl
          · simp only [if_neg fits]
            cases filter.isEmpty <;> rfl

theorem list (holds : Holds indexed dimension c db) :
    Responds (c.listed indexed) dimension c .list (Call.list.perform db).1 := by
  have perm : (sortTexts (names db)).Perm (names db) := List.mergeSort_perm _ _
  have sorted : (sortTexts (names db)).Pairwise (· < ·) :=
    (sortTexts_sorted _).imp₂ (fun _ _ atMost different =>
      String.not_le.mp fun atLeast => different (String.le_antisymm atMost atLeast))
      (perm.nodup_iff.mpr holds.once)
  refine ⟨namespaces db, rfl, (sorted.sublist (List.take_sublist _ _)).filter _, fun name => ?_⟩
  rw [namespaces, List.mem_filter, holds.listed_iff, bne_iff_ne]
  constructor
  · rintro ⟨⟨member, isShown⟩, other⟩
    obtain ⟨s, kept⟩ := Finmap.mem_iff.mp ((mem_tables_of_ne other).mp member)
    exact ⟨isShown, s, kept, holds.stocked name s kept⟩
  · rintro ⟨isShown, s, kept, _⟩
    have member : name ∈ c := Finmap.mem_of_lookup_eq_some kept
    have other : name ≠ infoTable := fun same => holds.apart (same ▸ member)
    exact ⟨⟨(mem_tables_of_ne other).mpr member, isShown⟩, other⟩

theorem perform (holds : Holds indexed dimension c db) (call : Call)
    (inScope : call.InScope dimension) :
    Responds (c.listed indexed) dimension c call (call.perform db).1 ∧
      Holds indexed dimension (c.after (c.listed indexed) call) (call.perform db).2 := by
  cases call with
  | upsert nspace records => exact holds.upsert inScope
  | delete nspace => exact holds.delete inScope
  | count nspace => exact ⟨holds.count inScope, holds⟩
  | query nspace vector topK filter => exact ⟨holds.query inScope vector topK filter, holds⟩
  | list => exact ⟨holds.list, holds⟩

theorem performAll {calls : List Call} (holds : Holds indexed dimension c db)
    (inScope : ∀ call ∈ calls, call.InScope dimension) :
    Conforms (Contents.listed indexed) dimension c calls (performAll db calls).1 := by
  induction calls generalizing c db with
  | nil => trivial
  | cons call calls ih =>
      obtain ⟨responds, after⟩ := holds.perform call (inScope call List.mem_cons_self)
      exact ⟨responds, ih after fun later member => inScope later (List.mem_cons_of_mem _ member)⟩

end Holds

end Steps

theorem Holds.new {indexed : Bool} {db : Database}
    (new : names db = if indexed then [infoTable] else []) (dimension : String → Nat) :
    Holds indexed dimension ∅ db where
  once := by
    rw [new]
    cases indexed <;> decide
  tables name := by
    rw [new, Contents.tables, Finmap.keys_empty]
    cases indexed <;> simp
  apart := Finmap.notMem_empty
  stocked name s found := by simp at found
  lists name s found := by simp at found

section AllShown

variable {dimension : String → Nat} {c : Contents} {shown : String → Bool}

def Uncrowded (indexed : Bool) (c : Contents) (calls : List Call) : Prop :=
  ∀ before ∈ calls.inits,
    ((c.afterAll (fun _ _ => true) before).tables indexed).card ≤ listingLimit

theorem listed_of_few {indexed : Bool} (few : (c.tables indexed).card ≤ listingLimit) {name : String}
    (member : name ∈ c) : c.listed indexed name = true := by
  have isTable : name ∈ c.tables indexed := by
    unfold Contents.tables
    split
    · exact Finset.mem_insert_of_mem (Finmap.mem_keys.mpr member)
    · exact Finmap.mem_keys.mpr member
  have fewer : (c.tables indexed).filter (· < name) ⊂ c.tables indexed :=
    Finset.filter_ssubset.mpr ⟨name, isTable, String.lt_irrefl name⟩
  exact decide_eq_true (Nat.lt_of_lt_of_le (Finset.card_lt_card fewer) few)

theorem seen_of_shown (all : ∀ name ∈ c, shown name = true) (name : String) :
    c.seen shown name = c.seen (fun _ => true) name := by
  by_cases member : name ∈ c
  · rw [Contents.seen, all name member, Contents.seen]
  · rw [Contents.seen, Contents.seen, Finmap.lookup_eq_none.mpr member, ite_self, ite_self]

theorem isShut_of_shown (all : ∀ name ∈ c, shown name = true) (name : String) :
    c.IsShut shown name ↔ c.IsShut (fun _ => true) name :=
  and_congr_right fun member => by rw [all name member]

theorem after_of_shown (all : ∀ name ∈ c, shown name = true) (call : Call) :
    c.after shown call = c.after (fun _ => true) call := by
  cases call <;> simp only [Contents.after, seen_of_shown all, isShut_of_shown all]

theorem responds_of_shown (all : ∀ name ∈ c, shown name = true) {call : Call}
    {answer : Except Failure Answer} (responds : Responds shown dimension c call answer) :
    Responds (fun _ => true) dimension c call answer := by
  cases call with
  | list =>
      obtain ⟨found, same, sorted, among⟩ := responds
      refine ⟨found, same, sorted, fun name => (among name).trans (and_congr_left ?_)⟩
      rintro ⟨s, kept, _⟩
      rw [all name (Finmap.mem_of_lookup_eq_some kept)]
  | _ => simpa only [Responds, seen_of_shown all, isShut_of_shown all] using responds

theorem Uncrowded.conforms {indexed : Bool} {calls : List Call}
    {answers : List (Except Failure Answer)} (uncrowded : Uncrowded indexed c calls)
    (conforms : Conforms (Contents.listed indexed) dimension c calls answers) :
    Conforms (fun _ _ => true) dimension c calls answers := by
  induction calls generalizing c answers with
  | nil =>
      cases answers with
      | nil => trivial
      | cons answer answers => exact conforms
  | cons call calls ih =>
      cases answers with
      | nil => exact conforms
      | cons answer answers =>
          have all (name : String) (member : name ∈ c) : c.listed indexed name = true :=
            listed_of_few (uncrowded [] (by simp)) member
          obtain ⟨responds, later⟩ := conforms
          rw [after_of_shown all] at later
          refine ⟨responds_of_shown all responds, ih (fun before isBefore => ?_) later⟩
          exact uncrowded (call :: before) (by simpa using isBefore)

end AllShown

/-- The calls to a new store are answered from one map for each table, as far as the listing shows it:
all of it, if there is never a table too many. -/
theorem answers_conform (indexed : Bool) (dimension : String → Nat) (calls : List Call) (db : Database)
    (new : names db = if indexed then [infoTable] else [])
    (inScope : ∀ call ∈ calls, call.InScope dimension) :
    Conforms (Contents.listed indexed) dimension ∅ calls (performAll db calls).1 ∧
      (Uncrowded indexed ∅ calls →
        Conforms (fun _ _ => true) dimension ∅ calls (performAll db calls).1) := by
  have conforms := (Holds.new new dimension).performAll inScope
  exact ⟨conforms, fun uncrowded => uncrowded.conforms conforms⟩

def smallRecord : TextRecord := ⟨"r", [1.0, 0.0], []⟩

def smallUse : List Call :=
  [.upsert "a" [smallRecord, { smallRecord with id := "s" }],
    .upsert "a" [{ smallRecord with vector := [0.0, 1.0] }],
    .count "a", .query "a" [1.0, 0.0] 3 [("language", "go")], .list, .delete "a", .count "a"]

theorem answers_conform_smallUse : Uncrowded false ∅ smallUse ∧
    Conforms (fun _ _ => true) (fun _ => 2) ∅ smallUse (performAll [] smallUse).1 := by
  have inScope : ∀ call ∈ smallUse, call.InScope fun _ => 2 := by decide
  have uncrowded : Uncrowded false ∅ smallUse := by
    unfold Uncrowded
    decide +kernel
  exact ⟨uncrowded, (answers_conform false (fun _ => 2) smallUse [] rfl inScope).2 uncrowded⟩

def longUse : List Call :=
  ["a", "b", "c", "d", "e", "f", "g", "h", "i", "j", "k"].map (Call.upsert · [smallRecord])

/-- The eleventh namespace counts as empty although a record was put into it. -/
theorem longUse_miscounted :
    (∀ call ∈ longUse ++ [.count "k"], call.InScope fun _ => 2) ∧
      ¬ Conforms (fun _ _ => true) (fun _ => 2) ∅ (longUse ++ [.count "k"])
        (performAll [] (longUse ++ [.count "k"])).1 := by
  have inScope : ∀ call ∈ longUse ++ [Call.count "k"], call.InScope fun _ => 2 := by decide
  refine ⟨inScope, fun claimed => ?_⟩
  have actual := (@Holds.new false [] rfl fun _ => 2).performAll inScope
  obtain ⟨answer, isLast, responds⟩ := claimed.last
  obtain ⟨answer', isLast', responds'⟩ := actual.last
  obtain rfl := Option.some.inj (isLast.symm.trans isLast')
  have same := Answer.number.inj (Except.ok.inj (responds.symm.trans responds'))
  revert same
  decide +kernel

end Groundwork.Store
