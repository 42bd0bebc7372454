import Groundwork.Proofs.Store.Isolation
import Groundwork.Proofs.Store.Ledger

/-!
The table that describes an index. It stands among the tables of namespaces, and nothing keeps a namespace
from having its name. Such a namespace can be dropped, and with it goes all that is known about the index;
where no index has been created, records put into such a namespace pass for the description of one.
-/

namespace Groundwork

namespace Store

open Text

section Reserved

variable {nspace : String}

theorem map_cleanChar_iff {word cs : List Char}
    (plain : word.all (fun x => isNameChar x && x != '_') = true) :
    cs.map cleanChar = word ↔ cs = word := by
  induction word generalizing cs with
  | nil => exact List.map_eq_nil_iff
  | cons x word ih =>
      rw [List.all_cons, Bool.and_eq_true, Bool.and_eq_true, bne_iff_ne] at plain
      obtain ⟨⟨allowed, other⟩, rest⟩ := plain
      rw [List.map_eq_cons_iff]
      constructor
      · rintro ⟨c, later, rfl, same, others⟩
        rw [(cleanChar_iff allowed other).mp same, (ih rest).mp others]
      · rintro rfl
        exact ⟨x, word, rfl, (cleanChar_iff allowed other).mpr rfl, (ih rest).mpr rfl⟩

theorem tableName_eq_ok_iff {name : String} (filled : name ≠ "") :
    tableName nspace = .ok name ↔ cleanName nspace = name := by
  rw [tableName]
  by_cases blank : cleanName nspace = ""
  · simp [blank, Ne.symm filled]
  · simp [blank]

/-- The namespaces with the table that describes an index: its two underscores may be any character that is
not allowed. -/
theorem tableName_infoTable_iff : tableName nspace = .ok infoTable ↔ ∃ a b,
    cleanChar a = '_' ∧ cleanChar b = '_' ∧
      (strip nspace).toList = a :: ("vibeplan".toList ++ b :: "index".toList) := by
  have spelled : infoTable = String.ofList ('_' :: ("vibeplan".toList ++ '_' :: "index".toList)) := by
    decide
  have first : "vibeplan".toList.all (fun x => isNameChar x && x != '_') = true := by decide
  have second : "index".toList.all (fun x => isNameChar x && x != '_') = true := by decide
  rw [tableName_eq_ok_iff (by decide), cleanName_eq, cleanText, spelled, String.ofList_inj,
    List.map_eq_cons_iff]
  simp only [List.map_eq_append_iff, List.map_eq_cons_iff, map_cleanChar_iff first,
    map_cleanChar_iff second]
  constructor
  · rintro ⟨a, _, whole, isFirst, _, _, rfl, rfl, b, _, rfl, isSecond, rfl⟩
    exact ⟨a, b, isFirst, isSecond, whole⟩
  · rintro ⟨a, b, isFirst, isSecond, whole⟩
    exact ⟨a, _, whole, isFirst, _, _, rfl, rfl, b, _, rfl, isSecond, rfl⟩

end Reserved

section Metadata

def metadata (s : Store) (index : String) : Except Failure IndexInfo :=
  (s.describeIndex index).map fun info => { info with namespaces := [] }

structure SameIndexes (s later : Store) : Prop where
  indexes : later.indexes = s.indexes
  metadata : ∀ index, later.metadata index = s.metadata index

def told (index : String) : Option Table → Except Failure IndexInfo
  | none => .error (.store (.noIndex index))
  | some (.info dimension metric) => .ok ⟨index, some dimension, metric, [], true⟩
  | some (.rows _ rows) => .ok ⟨index, none, "cosine", [], !rows.isEmpty⟩

variable {s : Store} {db : Database} {index : String} {table : Option Table}

theorem metadata_eq (s : Store) (index : String) :
    s.metadata index = told index ((s.database index).lookup infoTable) := by
  rw [metadata, describeIndex]
  cases (s.database index).lookup infoTable with
  | none => rfl
  | some table => cases table <;> rfl

theorem told_eq_none_iff : told index table = told index none ↔ table = none := by
  rcases table with _ | ⟨⟩ | ⟨⟩ <;> simp [told]

theorem told_eq_info_iff {dimension : Int} {metric : String} :
    told index table = told index (some (.info dimension metric)) ↔
      table = some (.info dimension metric) := by
  rcases table with _ | ⟨⟩ | ⟨⟩ <;> simp [told]

theorem isSome_of_told_eq {other : Option Table} (same : told index table = told index other) :
    table.isSome = other.isSome := by
  cases other with
  | none => rw [told_eq_none_iff.mp same]
  | some other =>
      cases table with
      | none => exact absurd (told_eq_none_iff.mp same.symm) (by simp)
      | some table => rfl

theorem database_setCurrent (s : Store) (db : Database) (index : String) :
    (s.setCurrent db).database index = if index = s.index then db else s.database index := by
  rw [database, setCurrent, setDatabase, lookup_setEntry]
  split
  · rfl
  · rfl

def IsDescribed (entry : String × Database) : Bool := (entry.2.lookup infoTable).isSome

theorem described_setEntry (db : Database) (databases : List (String × Database)) (index : String)
    (same : (db.lookup infoTable).isSome =
      (((databases.lookup index).getD []).lookup infoTable).isSome) :
    ((setEntry index db databases).filter IsDescribed).map (·.1) =
      (databases.filter IsDescribed).map (·.1) := by
  induction databases with
  | nil =>
      have none : IsDescribed (index, db) = false := same
      simp [setEntry, none]
  | cons entry databases ih =>
      obtain ⟨n, other⟩ := entry
      rw [setEntry]
      by_cases own : n = index
      · subst n
        rw [List.lookup_cons_self, Option.getD_some] at same
        have alike : IsDescribed (index, db) = IsDescribed (index, other) := same
        rw [if_pos rfl, List.filter_cons, List.filter_cons, alike]
        split <;> rfl
      · rw [List.lookup_cons, beq_false_of_ne (Ne.symm own)] at same
        rw [if_neg own, List.filter_cons, List.filter_cons]
        split
        · rw [List.map_cons, List.map_cons, ih same]
        · exact ih same

theorem sameIndexes_setCurrent_iff : SameIndexes s (s.setCurrent db) ↔
    told s.index (db.lookup infoTable) = told s.index (s.current.lookup infoTable) := by
  constructor
  · intro same
    have own := same.metadata s.index
    rwa [metadata_eq, metadata_eq, database_setCurrent, if_pos rfl] at own
  · intro same
    refine ⟨?_, fun index => ?_⟩
    · exact congrArg sortTexts (described_setEntry db s.databases s.index (isSome_of_told_eq same))
    · rw [metadata_eq, metadata_eq, database_setCurrent]
      split
      · rename_i own
        rw [own]
        exact same
      · rfl

end Metadata

section Calls

variable {db : Database} {call : Call} {calls : List Call} {name : String}

def Call.Reaches (name : String) : Call → Prop
  | upsert nspace _ | delete nspace => tableName nspace = .ok name
  | count _ | query .. | list => False

theorem perform_upsert (db : Database) (nspace : String) (records : List TextRecord) :
    (∃ n later, Store.upsert db nspace records = .ok (n, later) ∧
      (Call.upsert nspace records).perform db = (.ok (.number n), later)) ∨
    ∃ failure, (Call.upsert nspace records).perform db = (.error failure, db) := by
  rw [Call.perform]
  cases made : Store.upsert db nspace records with
  | ok result => exact Or.inl ⟨result.1, result.2, rfl, rfl⟩
  | error failure => exact Or.inr ⟨failure, rfl⟩

theorem perform_delete (db : Database) (nspace : String) :
    (∃ name, tableName nspace = .ok name ∧ name ∈ listed db ∧
      (Call.delete nspace).perform db = (.ok (.dropped true), db.filter (·.1 != name))) ∨
    ∃ answer, answer ≠ .ok (.dropped true) ∧ (Call.delete nspace).perform db = (answer, db) := by
  rw [Call.perform, Store.delete]
  cases named : tableName nspace with
  | error failure => exact Or.inr ⟨.error failure, by simp, rfl⟩
  | ok name =>
      by_cases isListed : name ∈ listed db
      · left
        refine ⟨name, rfl, isListed, ?_⟩
        simp [bind, Except.bind, isListed, pure, Except.pure]
      · right
        refine ⟨.ok (.dropped false), by simp, ?_⟩
        simp [bind, Except.bind, isListed, pure, Except.pure]

theorem perform_lookup (apart : ¬ call.Reaches name) :
    (call.perform db).2.lookup name = db.lookup name := by
  cases call with
  | upsert nspace records =>
      rcases perform_upsert db nspace records with ⟨n, later, put, made⟩ | ⟨failure, made⟩
      · rw [made]
        exact (upsert_keeps put).others name apart
      · rw [made]
  | delete nspace =>
      rcases perform_delete db nspace with ⟨own, named, _, made⟩ | ⟨answer, _, made⟩
      · have other : name ≠ own := by
          rintro rfl
          exact apart named
        rw [made]
        exact lookup_filter_of_ne other db
      · rw [made]
  | count | query | list => rfl

theorem performAll_cons (db : Database) (call : Call) (calls : List Call) :
    performAll db (call :: calls) =
      ((call.perform db).1 :: (performAll (call.perform db).2 calls).1,
        (performAll (call.perform db).2 calls).2) := rfl

theorem performAll_lookup (apart : ∀ call ∈ calls, ¬ call.Reaches name) :
    (performAll db calls).2.lookup name = db.lookup name := by
  induction calls generalizing db with
  | nil => rfl
  | cons call calls ih =>
      obtain ⟨first, others⟩ := List.forall_mem_cons.mp apart
      rw [performAll_cons]
      exact (ih others).trans (perform_lookup first)

section Created

variable {dimension : Int} {metric : String}

def Call.Drops (name : String) (call : Call) (answer : Except Failure Answer) : Prop :=
  call.Reaches name ∧ answer = .ok (.dropped true)

theorem lookup_filter_self (name : String) (db : Database) :
    (db.filter (·.1 != name)).lookup name = none := by
  refine List.lookup_eq_none_iff.mpr fun entry member => ?_
  have kept := (List.mem_filter.mp member).2
  rw [bne_iff_ne] at kept ⊢
  exact Ne.symm kept

theorem upsert_lookup_info {nspace : String} {records : List TextRecord} {n : Nat} {later : Database}
    (created : db.lookup name = some (.info dimension metric))
    (put : Store.upsert db nspace records = .ok (n, later)) : later.lookup name = db.lookup name := by
  cases records with
  | nil =>
      simp only [Store.upsert, Except.ok.injEq, Prod.mk.injEq] at put
      rw [← put.2]
  | cons first rest =>
      obtain ⟨own, size, old, _, before, rfl⟩ := upsert_ok put
      have other : name ≠ own := by
        rintro rfl
        simp [created] at before
      rw [lookup_setEntry, if_neg other]

theorem perform_created (created : db.lookup name = some (.info dimension metric)) (call : Call) :
    (call.perform db).2.lookup name = db.lookup name ∧ ¬ call.Drops name (call.perform db).1 ∨
      (call.perform db).2.lookup name = none ∧ call.Drops name (call.perform db).1 := by
  cases call with
  | upsert nspace records =>
      left
      rcases perform_upsert db nspace records with ⟨n, later, put, made⟩ | ⟨failure, made⟩
      · rw [made]
        exact ⟨upsert_lookup_info created put, by simp [Call.Drops]⟩
      · rw [made]
        exact ⟨rfl, by simp [Call.Drops]⟩
  | delete nspace =>
      rcases perform_delete db nspace with ⟨own, named, _, made⟩ | ⟨answer, kept, made⟩
      · rw [made]
        by_cases same : own = name
        · subst same
          exact Or.inr ⟨lookup_filter_self own db, named, rfl⟩
        · left
          refine ⟨lookup_filter_of_ne (Ne.symm same) db, fun drops => same ?_⟩
          exact Except.ok.inj (named.symm.trans drops.1)
      · rw [made]
        exact Or.inl ⟨rfl, fun drops => kept drops.2⟩
  | count | query | list => exact Or.inl ⟨rfl, fun drops => drops.1⟩

def Undescribed (name : String) (db : Database) : Prop :=
  ∀ dimension metric, db.lookup name ≠ some (.info dimension metric)

theorem Undescribed.perform (undescribed : Undescribed name db) (call : Call) :
    Undescribed name (call.perform db).2 := by
  by_cases reaches : call.Reaches name
  · cases call with
    | upsert nspace records =>
        rcases perform_upsert db nspace records with ⟨n, later, put, made⟩ | ⟨failure, made⟩
        · rw [made]
          cases records with
          | nil =>
              simp only [Store.upsert, Except.ok.injEq, Prod.mk.injEq] at put
              rwa [← put.2]
          | cons first rest =>
              obtain ⟨own, size, old, named, _, rfl⟩ := upsert_ok put
              obtain rfl := Except.ok.inj (named.symm.trans reaches)
              intro dimension metric
              simp [lookup_setEntry]
        · rwa [made]
    | delete nspace =>
        rcases perform_delete db nspace with ⟨own, named, _, made⟩ | ⟨answer, _, made⟩
        · obtain rfl := Except.ok.inj (named.symm.trans reaches)
          rw [made]
          intro dimension metric
          simp [lookup_filter_self]
        · rwa [made]
    | count | query | list => exact undescribed
  · intro dimension metric
    rw [perform_lookup reaches]
    exact undescribed dimension metric

theorem Undescribed.performAll (undescribed : Undescribed name db) (calls : List Call) :
    Undescribed name (performAll db calls).2 := by
  induction calls generalizing db with
  | nil => exact undescribed
  | cons call calls ih => exact ih (undescribed.perform call)

theorem performAll_created_iff (created : db.lookup name = some (.info dimension metric)) :
    (performAll db calls).2.lookup name = some (.info dimension metric) ↔
      ∀ step ∈ calls.zip (performAll db calls).1, ¬ step.1.Drops name step.2 := by
  induction calls generalizing db with
  | nil => simpa [performAll] using created
  | cons call calls ih =>
      rw [performAll_cons, List.zip_cons_cons, List.forall_mem_cons]
      rcases perform_created created call with ⟨kept, stays⟩ | ⟨gone, drops⟩
      · rw [ih (kept.trans created)]
        exact (and_iff_right stays).symm
      · have undescribed : Undescribed name (call.perform db).2 := fun _ _ => by simp [gone]
        exact iff_of_false (undescribed.performAll calls dimension metric) fun none => none.1 drops

end Created

section Missing

def Call.Founds (name : String) : Call → Prop
  | upsert nspace records => tableName nspace = .ok name ∧ records ≠ [] ∧
    ∃ dimension, OfDimension dimension records
  | delete _ | count _ | query .. | list => False

theorem Call.Founds.reaches (founds : call.Founds name) : call.Reaches name := by
  cases call with
  | upsert nspace records => exact founds.1
  | delete | count | query | list => exact founds.elim

theorem ofDimension_of_upsert {nspace : String} {first : TextRecord} {rest : List TextRecord}
    {n : Nat} {later : Database} (put : Store.upsert db nspace (first :: rest) = .ok (n, later)) :
    OfDimension first.vector.length (first :: rest) := by
  cases named : tableName nspace with
  | error failure => simp [Store.upsert, named, bind, Except.bind] at put
  | ok name =>
      simp only [Store.upsert, named, bind, Except.bind, throw, throwThe, MonadExceptOf.throw] at put
      split at put
      · simp at put
      · rename_i fits
        simp only [Bool.or_eq_true, decide_eq_true_eq, List.any_eq_true, bne_iff_ne, not_or,
          not_exists, not_and, not_not] at fits
        exact ⟨Nat.pos_of_ne_zero fits.1, fits.2⟩

theorem upsert_missing_iff (missing : db.lookup name = none) {nspace : String}
    (named : tableName nspace = .ok name) (records : List TextRecord) :
    ((Call.upsert nspace records).perform db).2.lookup name = none ↔
      ¬ (records ≠ [] ∧ ∃ dimension, OfDimension dimension records) := by
  rcases perform_upsert db nspace records with ⟨n, later, put, made⟩ | ⟨failure, made⟩
  · rw [made]
    cases records with
    | nil =>
        simp only [Store.upsert, Except.ok.injEq, Prod.mk.injEq] at put
        rw [← put.2]
        exact iff_of_true missing fun founds => founds.1 rfl
    | cons first rest =>
        have fits := ofDimension_of_upsert put
        rw [upsert_absent named missing fits (List.cons_ne_nil first rest), Except.ok.injEq,
          Prod.mk.injEq] at put
        have stored : (first :: rest).map storedRow ≠ [] := List.cons_ne_nil _ _
        rw [← put.2, lookup_holding stored]
        exact iff_of_false (by simp) fun none => none ⟨List.cons_ne_nil first rest, _, fits⟩
  · rw [made]
    refine iff_of_true missing ?_
    rintro ⟨filled, dimension, fits⟩
    have put := upsert_absent named missing fits filled
    rw [Call.perform, put] at made
    simp at made

theorem perform_missing_iff (missing : db.lookup name = none) (call : Call) :
    (call.perform db).2.lookup name = none ↔ ¬ call.Founds name := by
  by_cases reaches : call.Reaches name
  · cases call with
    | upsert nspace records =>
        rw [upsert_missing_iff missing reaches]
        exact not_congr (and_iff_right reaches).symm
    | delete nspace =>
        refine iff_of_true ?_ fun founds => founds
        rcases perform_delete db nspace with ⟨own, named, _, made⟩ | ⟨answer, _, made⟩
        · obtain rfl := Except.ok.inj (named.symm.trans reaches)
          rw [made]
          exact lookup_filter_self own db
        · rw [made]
          exact missing
    | count | query | list => exact reaches.elim
  · rw [perform_lookup reaches]
    exact iff_of_true missing fun founds => reaches founds.reaches

theorem performAll_missing_iff (missing : db.lookup name = none) :
    (∀ before, before <+: calls → (performAll db before).2.lookup name = none) ↔
      ∀ call ∈ calls, ¬ call.Founds name := by
  induction calls generalizing db with
  | nil =>
      refine iff_of_true (fun before isPrefix => ?_) (by simp)
      rw [List.prefix_nil.mp isPrefix]
      exact missing
  | cons call calls ih =>
      rw [List.forall_mem_cons, ← perform_missing_iff missing call]
      constructor
      · intro throughout
        have first := throughout [call] ((List.prefix_cons_inj call).mpr List.nil_prefix)
        rw [performAll_cons] at first
        refine ⟨first, (ih first).mp fun before isPrefix => ?_⟩
        exact throughout (call :: before) ((List.prefix_cons_inj call).mpr isPrefix)
      · rintro ⟨first, others⟩ before isPrefix
        rcases List.prefix_cons_iff.mp isPrefix with rfl | ⟨later, rfl, behind⟩
        · exact missing
        · rw [performAll_cons]
          exact (ih first).mpr others later behind

end Missing

end Calls

def after (s : Store) (calls : List Call) : Store := s.setCurrent (performAll s.current calls).2

theorem sameIndexes_after_iff {s : Store} {calls : List Call} : SameIndexes s (s.after calls) ↔
    told s.index ((performAll s.current calls).2.lookup infoTable) =
      told s.index (s.current.lookup infoTable) := sameIndexes_setCurrent_iff

/-- Calls that put nothing into the table of the index and do not drop it leave all indexes as they are. An
index that has been created stays as it is exactly if no call drops its table, and one that has not been
created stays unknown exactly if no call puts records into that table. -/
theorem after_sameIndexes (s : Store) (calls : List Call) :
    ((∀ call ∈ calls, ¬ call.Reaches infoTable) → SameIndexes s (s.after calls)) ∧
    (∀ dimension metric, s.current.lookup infoTable = some (.info dimension metric) →
      (SameIndexes s (s.after calls) ↔
        ∀ step ∈ calls.zip (performAll s.current calls).1, ¬ step.1.Drops infoTable step.2)) ∧
    (s.current.lookup infoTable = none →
      ((∀ before, before <+: calls → SameIndexes s (s.after before)) ↔
        ∀ call ∈ calls, ¬ call.Founds infoTable)) ∧
    ∀ nspace, tableName nspace = .ok infoTable ↔ ∃ a b, cleanChar a = '_' ∧ cleanChar b = '_' ∧
      (strip nspace).toList = a :: ("vibeplan".toList ++ b :: "index".toList) := by
  refine ⟨fun apart => ?_, fun dimension metric created => ?_, fun missing => ?_,
    fun nspace => tableName_infoTable_iff⟩
  · rw [sameIndexes_after_iff, performAll_lookup apart]
  · rw [sameIndexes_after_iff, created, told_eq_info_iff, performAll_created_iff created]
  · simp only [sameIndexes_after_iff, missing, told_eq_none_iff]
    exact performAll_missing_iff missing

section Bare

def bareIndex : Store := ⟨[("idx", [(infoTable, .info 2 "cosine")])], "idx"⟩

def wholeUse (nspace : String) : List Call :=
  [.upsert nspace [smallRecord], .query nspace [1.0, 0.0] 3 [], .count nspace, .delete nspace]

theorem tableName_slash : tableName "/vibeplan_index" = .ok infoTable := by
  rw [tableName_eq_ok_iff (by decide)]
  decide +kernel

theorem listed_singleton (name : String) (table : Table) : listed [(name, table)] = [name] := by
  rw [listed, sortTexts, List.map_cons, List.map_nil, List.mergeSort_singleton]
  rfl

theorem delete_bareIndex : Store.delete bareIndex.current "/vibeplan_index" = .ok (true, []) := by
  have shown : listed bareIndex.current = [infoTable] := listed_singleton infoTable _
  rw [Store.delete, tableName_slash, shown]
  rfl

/-- Another namespace leaves the index alone, one with its table drops it, and can pass for one where
there is none. -/
theorem bareIndex_used :
    SameIndexes bareIndex (bareIndex.after (wholeUse "acme")) ∧
      ¬ SameIndexes bareIndex (bareIndex.after [.delete "/vibeplan_index"]) ∧
      ¬ ∀ before, before <+: wholeUse "/vibeplan_index" →
        SameIndexes ⟨[], "idx"⟩ ((Store.mk [] "idx").after before) := by
  refine ⟨?_, ?_, ?_⟩
  · have apart : tableName "acme" ≠ .ok infoTable := by
      rw [Ne, tableName_eq_ok_iff (by decide)]
      decide +kernel
    refine (after_sameIndexes bareIndex (wholeUse "acme")).1 ?_
    simp [wholeUse, Call.Reaches, apart]
  · rw [(after_sameIndexes bareIndex [.delete "/vibeplan_index"]).2.1 2 "cosine" rfl]
    intro none
    have drops : (Call.delete "/vibeplan_index").Drops infoTable (.ok (.dropped true)) :=
      ⟨tableName_slash, rfl⟩
    have answered : (performAll bareIndex.current [.delete "/vibeplan_index"]).1 =
        [.ok (.dropped true)] := by
      rw [performAll_cons, Call.perform, delete_bareIndex]
      rfl
    rw [answered] at none
    exact none (.delete "/vibeplan_index", .ok (.dropped true)) List.mem_cons_self drops
  · rw [(after_sameIndexes ⟨[], "idx"⟩ (wholeUse "/vibeplan_index")).2.2.1 rfl]
    intro none
    have founds : (Call.upsert "/vibeplan_index" [smallRecord]).Founds infoTable :=
      ⟨tableName_slash, List.cons_ne_nil _ _, 2, by decide⟩
    exact none _ List.mem_cons_self founds

/-- The namespace `/vibeplan_index` has the table of the index, so the index goes when it is dropped. -/
theorem bareIndex_dropped :
    (Store.mk [] "idx").createIndex "idx" 2 "cosine" = .ok bareIndex ∧
      bareIndex.describeIndex "idx" = .ok ⟨"idx", some 2, "cosine", [], true⟩ ∧
      (bareIndex.after [.delete "/vibeplan_index"]).describeIndex "idx" =
        .error (.store (.noIndex "idx")) ∧
      bareIndex.indexes = ["idx"] ∧ (bareIndex.after [.delete "/vibeplan_index"]).indexes = [] := by
  have gone : bareIndex.after [.delete "/vibeplan_index"] = ⟨[("idx", [])], "idx"⟩ := by
    rw [after, performAll_cons, Call.perform, delete_bareIndex]
    rfl
  rw [gone]
  refine ⟨?_, ?_, rfl, ?_, ?_⟩
  · rw [createIndex, listed]
    simp [database, sortTexts, setDatabase, setEntry, bareIndex]
  · simp [describeIndex, bareIndex, database, namespaces, listed_singleton]
  · simp [indexes, bareIndex, sortTexts]
  · simp [indexes, sortTexts]

end Bare

end Store

end Groundwork
