import Groundwork.Store.Naming
import Groundwork.Store.Row

/-!
One database: its tables by name. A table holds rows of one dimension, or describes the index. Only the
first ten table names are listed, and a table that is not listed counts as missing, although it cannot
be created again.
-/

namespace Groundwork

namespace Store

inductive Table where
  | rows (dimension : Nat) (rows : List Row)
  | info (dimension : Int) (metric : String)

abbrev Database := List (String × Table)

def listingLimit : Nat := 10

def listed (db : Database) : List String := (sortTexts (db.map (·.1))).take listingLimit

def open? (db : Database) (name : String) : Option Table :=
  if (listed db).contains name then db.lookup name else none

/-- Puts an entry in the place of the one with its name, or behind all others. -/
def setEntry {α : Type} (name : String) (value : α) : List (String × α) → List (String × α)
  | [] => [(name, value)]
  | (n, v) :: rest => if n = name then (name, value) :: rest else (n, v) :: setEntry name value rest

def merge (old new : List Row) : List Row :=
  (old.filter fun r => !(new.map (·.id)).contains r.id) ++ new

def single (x : Float) : Float := x.toFloat32.toFloat

def storedRow (r : TextRecord) : Row :=
  Row.ofRecord { r with vector := r.vector.map single }

def upsertFailed (nspace : String) : Failure :=
  .store (.failed ("Upsert into '" ++ nspace ++ "'"))

/-- Inserts rows, or replaces those with the same ids. All of them need the dimension of the table. -/
def upsert (db : Database) (nspace : String) (records : List TextRecord) :
    Except Failure (Nat × Database) :=
  match records with
  | [] => .ok (0, db)
  | first :: _ => do
    let name ← tableName nspace
    let dimension := first.vector.length
    let new := records.map storedRow
    if dimension = 0 || records.any (·.vector.length != dimension) then
      throw (upsertFailed nspace)
    match open? db name with
    | some (.rows d old) =>
      if d = dimension then
        return (records.length, setEntry name (.rows d (merge old new)) db)
      else throw (upsertFailed nspace)
    | some (.info _ _) => throw (upsertFailed nspace)
    | none =>
      if (db.lookup name).isSome then throw (upsertFailed nspace)
      else return (records.length, setEntry name (.rows dimension new) db)

def dot (xs ys : Vector64) : Float := (xs.zipWith (· * ·) ys).foldl (· + ·) 0.0

/-- How alike two vectors are: one less their distance, which is one less the cosine of the angle between
them. Vectors without a direction are not alike to any degree. -/
def score? (xs ys : Vector64) : Option Float :=
  let distance := 1.0 - dot xs ys / (Embedding.length xs * Embedding.length ys)
  let score := 1.0 - distance
  if score.isNaN then none else some score

def hitOf (vector : Vector64) (r : Row) : Option (Retrieval.Hit Float) :=
  (score? vector r.vector).map fun score =>
    { id := r.id, score := some score, metadata? := some r.metadata }

def nearest (rows : List Row) (vector : Vector64) (topK : Nat) (filter : Filter) :
    List (Retrieval.Hit Float) :=
  let hits := (rows.filter (·.satisfies filter)).filterMap (hitOf vector)
  (hits.mergeSort fun a b => !decide (a.scoreOrZero < b.scoreOrZero)).take topK

def queryFailed (nspace : String) : Failure := .store (.failed ("Query on '" ++ nspace ++ "'"))

def query (db : Database) (nspace : String) (vector : Vector64) (topK : Int) (filter : Filter) :
    Except Failure (List (Retrieval.Hit Float)) := do
  let name ← tableName nspace
  match open? db name with
  | none => return []
  | some table =>
    let _ ← condition? filter
    match table with
    | .info _ _ => throw (queryFailed nspace)
    | .rows dimension rows =>
      if dimension = vector.length ∧ 0 < topK then
        return nearest rows (vector.map single) topK.toNat filter
      else throw (queryFailed nspace)

def Table.count : Table → Nat
  | .rows _ all => all.length
  | .info _ _ => 1

def countRows (db : Database) (nspace : String) : Except Failure Nat := do
  let name ← tableName nspace
  return match open? db name with
    | some table => table.count
    | none => 0

def delete (db : Database) (nspace : String) : Except Failure (Bool × Database) := do
  let name ← tableName nspace
  if (listed db).contains name then return (true, db.filter (·.1 != name))
  else return (false, db)

def namespaces (db : Database) : List String := (listed db).filter (· != infoTable)

end Store

/-- Databases by the name of their index, of which one is in use. -/
structure Store where
  databases : List (String × Store.Database) := []
  index : String := "vibeplan"

structure IndexInfo where
  name : String
  dimension : Option Int
  metric : String
  namespaces : List String
  ready : Bool
  deriving DecidableEq, Repr

def IndexInfo.toJson (i : IndexInfo) : Json :=
  .obj [("name", .str i.name), ("dimension", .orNull (i.dimension.map .int)),
    ("metric", .str i.metric), ("namespaces", .strings i.namespaces), ("ready", .bool i.ready)]

namespace Store

def database (s : Store) (index : String) : Database := (s.databases.lookup index).getD []

def current (s : Store) : Database := s.database s.index

def setDatabase (s : Store) (index : String) (db : Database) : Store :=
  { s with databases := setEntry index db s.databases }

def setCurrent (s : Store) (db : Database) : Store := s.setDatabase s.index db

/-- The indexes: the databases with a table that describes one. -/
def indexes (s : Store) : List String :=
  sortTexts ((s.databases.filter fun (_, db) => (db.lookup infoTable).isSome).map (·.1))

def createIndex (s : Store) (index : String) (dimension : Int) (metric : String) :
    Except Failure Store :=
  let db := s.database index
  if (listed db).contains infoTable then .ok s
  else if (db.lookup infoTable).isSome then
    .error (.store (.failed ("Cannot create index '" ++ index ++ "'")))
  else .ok (s.setDatabase index (setEntry infoTable (.info dimension metric) db))

def describeIndex (s : Store) (index : String) : Except Failure IndexInfo :=
  let db := s.database index
  match db.lookup infoTable with
  | none => .error (.store (.noIndex index))
  | some (.info dimension metric) =>
    .ok ⟨index, some dimension, metric, namespaces db, true⟩
  | some (.rows _ rows) => .ok ⟨index, none, "cosine", namespaces db, !rows.isEmpty⟩

def readyInfo? (s : Store) : Option IndexInfo :=
  match s.describeIndex s.index with
  | .ok info => if info.ready then some info else none
  | .error _ => none

/-- Looks at the index in use up to so many times. It is ready at once or not at all, since nothing
else is at work meanwhile. -/
def awaitReady (s : Store) (attempts : Int) : Except Failure IndexInfo :=
  match s.readyInfo? with
  | some info => if 0 < attempts then .ok info else .error (.store (.notReady s.index attempts))
  | none => .error (.store (.notReady s.index attempts))

def waitPauses (s : Store) (attempts : Int) : Nat :=
  if s.readyInfo?.isSome then 0 else (attempts - 1).toNat

def ensureIndex (s : Store) (dimension : Int) (attempts : Int) : Except Failure Unit × Store :=
  let made := if s.indexes.contains s.index then .ok s else s.createIndex s.index dimension "cosine"
  match made with
  | .error failure => (.error failure, s)
  | .ok s => ((s.awaitReady attempts).map fun _ => (), s)

end Store

end Groundwork
