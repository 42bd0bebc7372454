import Groundwork.Proofs.Index.PartialWrites
import Groundwork.Proofs.Index.Rows
import Mathlib.Data.Fin.VecNotation

/-!
Several runs that write the same rows into one namespace, each in batches of its own, step by step in
any order. If the table is among those that are listed no run fails, and in the end the table has each
row once. If it is not, it keeps the batch that made it and takes nothing more.
-/

namespace Groundwork.Index

open Store

inductive Writer where
  | going (left : List Step)
  | failed (failure : Failure)

namespace Writer

def step (nspace : String) (w : Writer) (db : Database) : Writer × Database :=
  match w with
  | going (.pause :: rest) => (going rest, db)
  | going (.upsert batch :: rest) =>
    match Store.upsert db nspace batch with
    | .ok (_, later) => (going rest, later)
    | .error failure => (failed failure, db)
  | w => (w, db)

def Ended : Writer → Prop
  | going left => left = []
  | failed _ => True

instance (w : Writer) : Decidable w.Ended :=
  match w with
  | going [] => isTrue rfl
  | going (_ :: _) => isFalse (List.cons_ne_nil _ _)
  | failed _ => isTrue trivial

def put (nspace : String) (rows : List TextRecord) : StateM Database (Except Failure Unit) :=
  fun db => match Store.upsert db nspace rows with
    | .ok (_, later) => (.ok (), later)
    | .error failure => (.error failure, db)

def alone (nspace : String) (w : Writer) (db : Database) : Except Failure Unit × Database :=
  match w with
  | going left => (takeSteps (put nspace) (pure ()) left).run db
  | failed failure => (.error failure, db)

end Writer

structure Race (n : Nat) where
  writers : Fin n → Writer
  database : Database

namespace Race

variable {n : Nat}

def start (sizes : Fin n → Int) (rows : List TextRecord) (db : Database) : Race n where
  writers i := .going (writingSteps (sizes i) rows)
  database := db

def step (nspace : String) (r : Race n) (i : Fin n) : Race n :=
  let (w, db) := (r.writers i).step nspace r.database
  ⟨Function.update r.writers i w, db⟩

def run (nspace : String) (turns : List (Fin n)) (r : Race n) : Race n :=
  turns.foldl (step nspace) r

def Ended (r : Race n) : Prop := ∀ i, (r.writers i).Ended

instance (r : Race n) : Decidable r.Ended := inferInstanceAs (Decidable (∀ i, (r.writers i).Ended))

section Step

variable {nspace : String} {r : Race n} {i : Fin n} {w : Writer} {after : Database}

theorem step_database (stepped : (r.writers i).step nspace r.database = (w, after)) :
    (r.step nspace i).database = after := by
  rw [step, stepped]

theorem step_writers (stepped : (r.writers i).step nspace r.database = (w, after)) (j : Fin n) :
    (r.step nspace i).writers j = if j = i then w else r.writers j := by
  rw [step, stepped]
  exact Function.update_apply _ _ _ _

theorem step_idle (idle : (r.writers i).step nspace r.database = (r.writers i, r.database)) :
    r.step nspace i = r := by
  rw [step, idle]
  exact congrArg (Race.mk · r.database) (Function.update_eq_self i r.writers)

end Step

theorem run_induction {nspace : String} {P : Race n → Prop} (next : ∀ r i, P r → P (r.step nspace i))
    (turns : List (Fin n)) {r : Race n} (holds : P r) : P (run nspace turns r) := by
  induction turns generalizing r with
  | nil => exact holds
  | cons i turns ih => exact ih (next r i holds)

end Race

theorem steps_cons (batch : List TextRecord) (rest : List (List TextRecord)) :
    steps (batch :: rest) = .upsert batch :: if rest = [] then [] else .pause :: steps rest := by
  cases rest with
  | nil => rfl
  | cons second rest => rfl

theorem upsert_mem_steps {batch : List TextRecord} {all : List (List TextRecord)} :
    .upsert batch ∈ steps all ↔ batch ∈ all := by
  induction all with
  | nil => simp [steps]
  | cons first rest ih =>
      rw [steps_cons, List.mem_cons, List.mem_cons, Step.upsert.injEq]
      by_cases last : rest = []
      · simp [last]
      · simp [last, ih]

theorem sublist_of_mem_batches {α : Type} {size : Nat} {xs batch : List α}
    (member : batch ∈ batches size xs) : batch.Sublist xs := by
  have part := List.sublist_flatten_of_mem member
  rwa [batches_flatten] at part

/-- Rows of one dimension and with ids of their own, for a namespace that has no table. -/
structure Fresh (db : Database) (nspace name : String) (dimension : Nat) (rows : List TextRecord) :
    Prop where
  named : tableName nspace = .ok name
  absent : db.lookup name = none
  fits : OfDimension dimension rows
  once : (rows.map (·.id)).Nodup

variable {n : Nat} {db : Database} {nspace name : String} {dimension : Nat} {rows : List TextRecord}

theorem Fresh.storedOnce (fresh : Fresh db nspace name dimension rows) :
    ((rows.map storedRow).map (·.id)).Nodup := by
  rw [List.map_map]
  exact fresh.once

section Listed

/-- What a run still has to do when some rows are stored: every row is stored or in a batch that is
left. -/
structure Pending (rows : List TextRecord) (stored : List Row) (left : List Step) : Prop where
  parts : ∀ batch, .upsert batch ∈ left → batch ≠ [] ∧ batch.Sublist rows
  covered : ∀ row ∈ rows, storedRow row ∈ stored ∨ ∃ batch, .upsert batch ∈ left ∧ row ∈ batch

variable {stored later : List Row} {left : List Step}

theorem Pending.start (size : Int) (rows : List TextRecord) :
    Pending rows [] (writingSteps size rows) where
  parts batch member := by
    rw [writingSteps, upsert_mem_steps] at member
    exact ⟨nonempty_of_mem_batches member, sublist_of_mem_batches member⟩
  covered row member := by
    rw [← batches_flatten (max 1 size).toNat rows, List.mem_flatten] at member
    obtain ⟨batch, among, inside⟩ := member
    exact Or.inr ⟨batch, upsert_mem_steps.mpr among, inside⟩

theorem Pending.more (pending : Pending rows stored left) (kept : stored ⊆ later) :
    Pending rows later left where
  parts := pending.parts
  covered row member := (pending.covered row member).imp_left fun inside => kept inside

theorem Pending.paused (pending : Pending rows stored (.pause :: left)) : Pending rows stored left where
  parts batch member := pending.parts batch (List.mem_cons_of_mem _ member)
  covered row member := by
    rcases pending.covered row member with inside | ⟨batch, among, inside⟩
    · exact Or.inl inside
    · exact Or.inr ⟨batch, by simpa using among, inside⟩

theorem Pending.written {batch : List TextRecord}
    (pending : Pending rows stored (.upsert batch :: left)) (kept : stored ⊆ later)
    (put : batch.map storedRow ⊆ later) : Pending rows later left where
  parts other member := pending.parts other (List.mem_cons_of_mem _ member)
  covered row member := by
    rcases pending.covered row member with inside | ⟨other, among, inside⟩
    · exact Or.inl (kept inside)
    · rcases List.mem_cons.mp among with same | among
      · obtain rfl := Step.upsert.inj same
        exact Or.inl (put (List.mem_map_of_mem inside))
      · exact Or.inr ⟨other, among, inside⟩

/-- The table has some of the rows, each once, no run has failed, and what is not stored is still to be
put in by each of them. -/
structure Gathers (db : Database) (name : String) (dimension : Nat) (rows : List TextRecord)
    (stored : List Row) (r : Race n) : Prop where
  database : r.database = holding name dimension stored db
  among : stored ⊆ rows.map storedRow
  once : (stored.map (·.id)).Nodup
  going : ∀ i, ∃ left, r.writers i = .going left ∧ Pending rows stored left

theorem Gathers.start (sizes : Fin n → Int) (rows : List TextRecord) (db : Database) :
    Gathers db name dimension rows [] (Race.start sizes rows db) where
  database := rfl
  among := List.nil_subset _
  once := List.nodup_nil
  going i := ⟨_, rfl, Pending.start (sizes i) rows⟩

theorem Gathers.move {r : Race n} {i : Fin n} (gathers : Gathers db name dimension rows stored r)
    {w : Writer} {after : Database} (stepped : (r.writers i).step nspace r.database = (w, after))
    (database : after = holding name dimension later db) (among : later ⊆ rows.map storedRow)
    (once : (later.map (·.id)).Nodup) (kept : stored ⊆ later) (writer : w = .going left)
    (pending : Pending rows later left) :
    Gathers db name dimension rows later (r.step nspace i) where
  database := (Race.step_database stepped).trans database
  among := among
  once := once
  going j := by
    rw [Race.step_writers stepped]
    by_cases same : j = i
    · exact ⟨left, by rw [if_pos same, writer], pending⟩
    · obtain ⟨others, isGoing, before⟩ := gathers.going j
      exact ⟨others, by rw [if_neg same, isGoing], before.more kept⟩

theorem Gathers.next (fresh : Fresh db nspace name dimension rows)
    (few : (names db).countP (· < name) < listingLimit) {r : Race n}
    (gathers : Gathers db name dimension rows stored r) (i : Fin n) :
    ∃ later, Gathers db name dimension rows later (r.step nspace i) := by
  obtain ⟨left, isGoing, pending⟩ := gathers.going i
  have same := List.Subset.refl stored
  match left, pending with
  | [], pending =>
      exact ⟨stored, gathers.move (by rw [isGoing]; rfl) gathers.database gathers.among gathers.once
        same rfl pending⟩
  | .pause :: rest, pending =>
      exact ⟨stored, gathers.move (by rw [isGoing]; rfl) gathers.database gathers.among gathers.once
        same rfl pending.paused⟩
  | .upsert batch :: rest, pending =>
      obtain ⟨filled, part⟩ := pending.parts batch List.mem_cons_self
      have newAmong : batch.map storedRow ⊆ rows.map storedRow := (part.map _).subset
      have newOnce : ((batch.map storedRow).map (·.id)).Nodup :=
        fresh.storedOnce.sublist ((part.map _).map _)
      have members {row : Row} : row ∈ merge stored (batch.map storedRow) ↔
          row ∈ stored ∨ row ∈ batch.map storedRow :=
        mem_merge_iff fresh.storedOnce gathers.among newAmong
      have kept : stored ⊆ merge stored (batch.map storedRow) := fun _ member =>
        members.mpr (Or.inl member)
      have put : batch.map storedRow ⊆ merge stored (batch.map storedRow) := fun _ member =>
        members.mpr (Or.inr member)
      refine ⟨_, gathers.move (w := .going rest) ?_ rfl ?_ (merge_ids_nodup gathers.once newOnce) kept
        rfl (pending.written kept put)⟩
      · rw [isGoing, gathers.database, Writer.step]
        rw [upsert_holding fresh.named fresh.absent few (fresh.fits.subset part.subset) filled]
      · intro row member
        rcases members.mp member with old | new
        · exact gathers.among old
        · exact newAmong new

theorem gathers_run (fresh : Fresh db nspace name dimension rows)
    (few : (names db).countP (· < name) < listingLimit) (sizes : Fin n → Int) (turns : List (Fin n)) :
    ∃ stored, Gathers db name dimension rows stored
      (Race.run nspace turns (Race.start sizes rows db)) := by
  have next (r : Race n) (i : Fin n) (before : ∃ stored, Gathers db name dimension rows stored r) :
      ∃ stored, Gathers db name dimension rows stored (r.step nspace i) := by
    obtain ⟨stored, gathers⟩ := before
    exact gathers.next fresh few i
  exact Race.run_induction next turns ⟨[], Gathers.start sizes rows db⟩

theorem Gathers.ended (fresh : Fresh db nspace name dimension rows) {r : Race n}
    (gathers : Gathers db name dimension rows stored r) (ended : r.Ended) (i : Fin n) :
    r.writers i = .going [] ∧ stored.Perm (rows.map storedRow) := by
  obtain ⟨left, isGoing, pending⟩ := gathers.going i
  have empty := ended i
  rw [isGoing, Writer.Ended] at empty
  subst empty
  refine ⟨isGoing, (List.perm_ext_iff_of_nodup gathers.once.of_map fresh.storedOnce.of_map).mpr ?_⟩
  intro row
  constructor
  · intro member
    exact gathers.among member
  · intro member
    obtain ⟨original, inside, rfl⟩ := List.mem_map.mp member
    simpa using pending.covered original inside

end Listed

section Hidden

variable {stored : List Row} {sizes : Fin n → Int}

def Barred (nspace : String) (rows : List TextRecord) (w : Writer) : Prop :=
  w = .failed (upsertFailed nspace) ∨ ∃ batch rest, batch ≠ [] ∧ batch ⊆ rows ∧
    (w = .going (.upsert batch :: rest) ∨ w = .going (.pause :: .upsert batch :: rest))

theorem barred_steps {all : List (List TextRecord)} (more : all ≠ [])
    (parts : ∀ batch ∈ all, batch ≠ [] ∧ batch ⊆ rows) : Barred nspace rows (.going (steps all)) ∧
      Barred nspace rows (.going (.pause :: steps all)) := by
  obtain ⟨batch, rest, rfl⟩ := List.exists_cons_of_ne_nil more
  obtain ⟨filled, part⟩ := parts batch List.mem_cons_self
  rw [steps_cons]
  exact ⟨Or.inr ⟨batch, _, filled, part, Or.inl rfl⟩, Or.inr ⟨batch, _, filled, part, Or.inr rfl⟩⟩

theorem Barred.step (fresh : Fresh db nspace name dimension rows)
    (many : listingLimit ≤ (names db).countP (· < name)) (kept : stored ≠ []) {w : Writer}
    (barred : Barred nspace rows w) :
    ∃ w', w.step nspace (holding name dimension stored db) = (w', holding name dimension stored db) ∧
      Barred nspace rows w' := by
  rcases barred with rfl | ⟨batch, rest, filled, part, rfl | rfl⟩
  · exact ⟨_, rfl, Or.inl rfl⟩
  · refine ⟨.failed (upsertFailed nspace), ?_, Or.inl rfl⟩
    rw [Writer.step, upsert_hidden fresh.named fresh.absent many (fresh.fits.subset part) filled kept]
  · exact ⟨_, rfl, Or.inr ⟨batch, rest, filled, part, Or.inl rfl⟩⟩

theorem Barred.ended {w : Writer} (barred : Barred nspace rows w) (ended : w.Ended) :
    w = .failed (upsertFailed nspace) := by
  rcases barred with failed | ⟨_, _, _, _, rfl | rfl⟩
  · exact failed
  · exact absurd ended (List.cons_ne_nil _ _)
  · exact absurd ended (List.cons_ne_nil _ _)

structure Shut (db : Database) (nspace name : String) (dimension : Nat) (rows : List TextRecord)
    (i : Fin n) (batch : List TextRecord) (rest : List (List TextRecord)) (r : Race n) : Prop where
  database : r.database = holding name dimension (batch.map storedRow) db
  filled : batch ≠ []
  done : rest = [] → r.writers i = .going []
  undone : rest ≠ [] → Barred nspace rows (r.writers i)
  others : ∀ j, j ≠ i → Barred nspace rows (r.writers j)

theorem Shut.next (fresh : Fresh db nspace name dimension rows)
    (many : listingLimit ≤ (names db).countP (· < name)) {r : Race n} {i : Fin n}
    {batch : List TextRecord} {rest : List (List TextRecord)}
    (shut : Shut db nspace name dimension rows i batch rest r) (k : Fin n) :
    Shut db nspace name dimension rows i batch rest (r.step nspace k) := by
  have kept : batch.map storedRow ≠ [] := by simpa using shut.filled
  by_cases finished : k = i ∧ rest = []
  · -- A run without a step left changes nothing.
    obtain ⟨rfl, last⟩ := finished
    have idle : (r.writers k).step nspace r.database = (r.writers k, r.database) := by
      rw [shut.done last]
      rfl
    rwa [Race.step_idle idle]
  · have barred : Barred nspace rows (r.writers k) := by
      by_cases own : k = i
      · subst own
        exact shut.undone fun last => finished ⟨rfl, last⟩
      · exact shut.others k own
    obtain ⟨w, stepped, stays⟩ := barred.step fresh many kept
    rw [← shut.database] at stepped
    have writers := Race.step_writers stepped
    refine ⟨(Race.step_database stepped).trans shut.database, shut.filled, fun last => ?_,
      fun more => ?_, fun j other => ?_⟩
    · rw [writers, if_neg fun same => finished ⟨same.symm, last⟩]
      exact shut.done last
    · rw [writers]
      split
      · exact stays
      · exact shut.undone more
    · rw [writers]
      split
      · exact stays
      · exact shut.others j other

theorem shut_of_start (fresh : Fresh db nspace name dimension rows) (filled : rows ≠ []) (i : Fin n) :
    ∃ batch rest, batches (max 1 (sizes i)).toNat rows = batch :: rest ∧
      Shut db nspace name dimension rows i batch rest
        ((Race.start sizes rows db).step nspace i) := by
  have parts (j : Fin n) : ∀ batch ∈ batches (max 1 (sizes j)).toNat rows, batch ≠ [] ∧ batch ⊆ rows :=
    fun batch member => ⟨nonempty_of_mem_batches member, (sublist_of_mem_batches member).subset⟩
  have several : batches (max 1 (sizes i)).toNat rows ≠ [] := batches_ne_nil filled
  obtain ⟨batch, rest, split⟩ := List.exists_cons_of_ne_nil several
  obtain ⟨batchFilled, part⟩ := parts i batch (split ▸ List.mem_cons_self)
  have stepped : ((Race.start sizes rows db).writers i).step nspace
      (Race.start sizes rows db).database =
        (.going (if rest = [] then [] else .pause :: steps rest),
          holding name dimension (batch.map storedRow) db) := by
    simp only [Race.start, writingSteps, split, steps_cons, Writer.step,
      upsert_absent fresh.named fresh.absent (fresh.fits.subset part) batchFilled]
  have writers := Race.step_writers stepped
  refine ⟨batch, rest, split, Race.step_database stepped, batchFilled, fun last => ?_, fun more => ?_,
    fun j other => ?_⟩
  · rw [writers, if_pos rfl, if_pos last]
  · rw [writers, if_pos rfl, if_neg more]
    refine (barred_steps more fun batch member => parts i batch ?_).2
    exact split ▸ List.mem_cons_of_mem _ member
  · rw [writers, if_neg other]
    exact (barred_steps (batches_ne_nil filled) (parts j)).1

theorem shut_run (fresh : Fresh db nspace name dimension rows)
    (many : listingLimit ≤ (names db).countP (· < name)) (filled : rows ≠ []) (sizes : Fin n → Int)
    (turns : List (Fin n)) :
    Race.run nspace turns (Race.start sizes rows db) = Race.start sizes rows db ∨
      ∃ i batch rest, batches (max 1 (sizes i)).toNat rows = batch :: rest ∧
        Shut db nspace name dimension rows i batch rest
          (Race.run nspace turns (Race.start sizes rows db)) := by
  refine Race.run_induction (P := fun r => r = Race.start sizes rows db ∨ ∃ i batch rest,
    batches (max 1 (sizes i)).toNat rows = batch :: rest ∧
      Shut db nspace name dimension rows i batch rest r) ?_ turns (Or.inl rfl)
  rintro r k (rfl | ⟨i, batch, rest, split, shut⟩)
  · exact Or.inr ⟨k, shut_of_start fresh filled k⟩
  · exact Or.inr ⟨i, batch, rest, split, shut.next fresh many k⟩

end Hidden

/-- What becomes of runs that write the rows of one analysis into a namespace without a table. If fewer
than ten names stand before that of the table, no run fails and the table has each row once. Otherwise
the run that comes first puts in one batch, and every other batch, of any run, fails. -/
theorem race_ends {perRecord : Bool} {a : Analysis} {vectors : List Vector64}
    (made : records perRecord a vectors = .ok rows)
    (enough : perRecord = true → (entries a).length ≤ vectors.length)
    (fits : OfDimension dimension rows) (named : tableName nspace = .ok name)
    (absent : db.lookup name = none) (sizes : Fin (n + 1) → Int) (turns : List (Fin (n + 1)))
    {r : Race (n + 1)} (reached : Race.run nspace turns (Race.start sizes rows db) = r)
    (ended : r.Ended) :
    ((names db).countP (· < name) < 10 →
      (∀ i, r.writers i = .going []) ∧
      ∃ stored, r.database = setEntry name (.rows dimension stored) db ∧
        stored.Perm (rows.map storedRow) ∧ (stored.map (·.id)).Perm ((entries a).map (·.id)) ∧
        (stored.map (·.id)).Nodup) ∧
    (10 ≤ (names db).countP (· < name) →
      ∃ i batch rest, batches (max 1 (sizes i)).toNat rows = batch :: rest ∧
        r.database = setEntry name (.rows dimension (batch.map storedRow)) db ∧
        r.writers i = (if rest = [] then .going [] else .failed (upsertFailed nspace)) ∧
        ∀ j, j ≠ i → r.writers j = .failed (upsertFailed nspace)) := by
  have ids := records_ids made enough
  have filled : rows ≠ [] := by
    rintro rfl
    simp [entries] at ids
  have fresh : Fresh db nspace name dimension rows := ⟨named, absent, fits, ids ▸ entries_ids_nodup a⟩
  constructor
  · intro few
    obtain ⟨stored, gathers⟩ := gathers_run fresh few sizes turns
    rw [reached] at gathers
    obtain ⟨_, perm⟩ := gathers.ended fresh ended 0
    have kept : stored ≠ [] := by
      rintro rfl
      exact filled (by simpa using perm)
    have storedIds : (stored.map (·.id)).Perm ((entries a).map (·.id)) := by
      rw [← ids]
      have mapped := perm.map (·.id)
      rwa [List.map_map] at mapped
    refine ⟨fun i => (gathers.ended fresh ended i).1, stored, ?_, perm, storedIds, gathers.once⟩
    rw [gathers.database, holding, if_neg kept]
  · intro many
    rcases shut_run fresh many filled sizes turns with unmoved | ⟨i, batch, rest, split, shut⟩
    · -- Every run has at least one step to take.
      have several : batches (max 1 (sizes 0)).toNat rows ≠ [] := batches_ne_nil filled
      obtain ⟨batch, rest, split⟩ := List.exists_cons_of_ne_nil several
      have none := ended 0
      rw [← reached, unmoved, Race.start, Writer.Ended, writingSteps, split, steps_cons] at none
      exact absurd none (List.cons_ne_nil _ _)
    · rw [reached] at shut
      have kept : batch.map storedRow ≠ [] := by simpa using shut.filled
      refine ⟨i, batch, rest, split, ?_, ?_, fun j other => (shut.others j other).ended (ended j)⟩
      · rw [shut.database, holding, if_neg kept]
      · by_cases last : rest = []
        · rw [if_pos last, shut.done last]
        · rw [if_neg last, (shut.undone last).ended (ended i)]

def smallRows : List TextRecord := rowsOf (entries smallAnalysis) [[1.0], [1.0], [1.0]]

def smallRace (rows : List TextRecord) (db : Database) : Race 2 :=
  Race.run "owner-repo-main" [0, 1, 0, 1, 0, 1, 0, 0] (Race.start ![1, 2] rows db)

theorem smallRows_fits : OfDimension 1 smallRows := ⟨by decide, by decide⟩

theorem race_ends_small : (∀ i, (smallRace smallRows []).writers i = .going []) ∧
    ∃ stored, (smallRace smallRows []).database = [("owner-repo-main", .rows 1 stored)] ∧
      (stored.map (·.id)).Perm ["repo-overview", "repo-file-0", "repo-lang-python"] := by
  have ids : (entries smallAnalysis).map (·.id) =
      ["repo-overview", "repo-file-0", "repo-lang-python"] := by decide
  have made : records true smallAnalysis [[1.0], [1.0], [1.0]] = .ok smallRows := rfl
  have named : tableName "owner-repo-main" = .ok "owner-repo-main" := by decide
  have absent : ([] : Database).lookup "owner-repo-main" = none := rfl
  have ended : (smallRace smallRows []).Ended := by decide +kernel
  obtain ⟨complete, _⟩ := race_ends made (by decide) smallRows_fits named absent ![1, 2]
    [0, 1, 0, 1, 0, 1, 0, 0] rfl ended
  obtain ⟨going, stored, database, _, storedIds, _⟩ := complete (by decide)
  exact ⟨going, stored, database, ids ▸ storedIds⟩

def crowded : Database :=
  ["a", "b", "c", "d", "e", "f", "g", "h", "i", "j"].map fun name =>
    (name, .rows 1 (smallRows.map storedRow))

theorem smallRace_crowded {x y z : TextRecord} (fits : OfDimension 1 [x, y, z]) :
    smallRace [x, y, z] crowded = ⟨fun _ => .failed (upsertFailed "owner-repo-main"),
      setEntry "owner-repo-main" (.rows 1 [storedRow x]) crowded⟩ := by
  have named : tableName "owner-repo-main" = .ok "owner-repo-main" := by decide
  have absent : crowded.lookup "owner-repo-main" = none := rfl
  have many : listingLimit ≤ (names crowded).countP (· < "owner-repo-main") := by decide
  have first : OfDimension 1 [x] := fits.subset (by simp)
  have made := upsert_absent named absent first (by simp)
  have refused (batch : List TextRecord) (among : batch ⊆ [x, y, z]) (filled : batch ≠ []) :=
    upsert_hidden named absent many (fits.subset among) filled (List.cons_ne_nil (storedRow x) [])
  have second := refused [y] (by simp) (by simp)
  have pair := refused [x, y] (by simp) (by simp)
  simp only [holding, List.map_cons, List.map_nil, List.cons_ne_nil, if_false] at made second pair
  simp [smallRace, Race.run, Race.start, Race.step, Writer.step, writingSteps, batches, steps, made,
    second, pair]
  funext i
  revert i
  exact Fin.forall_fin_two.mpr ⟨rfl, rfl⟩

/-- Both runs see an empty namespace, and in the end both have failed and it has one of three rows. -/
theorem smallRace_incomplete :
    Store.countRows crowded "owner-repo-main" = .ok 0 ∧
      (entries smallAnalysis).map (·.id) = ["repo-overview", "repo-file-0", "repo-lang-python"] ∧
      (smallRace smallRows crowded).Ended ∧
      ∃ row, (smallRace smallRows crowded).database.lookup "owner-repo-main" =
        some (.rows 1 [row]) := by
  refine ⟨?_, by decide, ?_⟩
  · have named : tableName "owner-repo-main" = .ok "owner-repo-main" := by decide
    have absent : crowded.lookup "owner-repo-main" = none := rfl
    rw [countRows_eq named, open?_eq, absent, ite_self]
  · obtain ⟨x, y, z, three⟩ := List.length_eq_three.mp
      (show smallRows.length = 3 by decide)
    rw [three, smallRace_crowded (three ▸ smallRows_fits)]
    refine ⟨fun _ => trivial, storedRow x, ?_⟩
    rw [lookup_setEntry, if_pos rfl]

end Groundwork.Index
