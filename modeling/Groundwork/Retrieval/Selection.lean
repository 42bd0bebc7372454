import Groundwork.Retrieval.Hit

/-!
From the hits of a search to the hits that are shown. Hits of few results are joined by those of a
second search; unsuitable ones are dropped; of the hits of one path the best is kept; the rest is
sorted by adjusted score.
-/

namespace Groundwork.Retrieval

open Text

def fallbackThreshold : Nat := 5

variable {S : Type}

/-- Adds those hits of a second search whose path has not been seen. -/
def mergeHits (first second : List (Hit S)) : List (Hit S) :=
  second.foldl
    (fun merged h => if merged.any (·.path == h.path) then merged else merged ++ [h]) first

/-- Whether a hit has a path, is similar enough, and is no documentation unless that is not the
point of the query or the text has a technical term. -/
def suits [OfNat S 0] [LT S] [DecidableLT S] (minSimilarity : S) (technical : Bool)
    (h : Hit S) : Bool :=
  h.path != "" && !decide (h.scoreOrZero < minSimilarity) &&
    (!(technical && isDocumentation h.path) || containsAny (lower h.searchable) technicalTerms)

/-- Puts a hit into a list that has at most one hit for each path. It takes the place of an older
one if its score is higher; hits that have to be compared must have one. -/
def keepBest [LT S] [DecidableLT S] (h : Hit S) :
    List (Hit S) → Except DataFault (List (Hit S))
  | [] => .ok [h]
  | other :: rest =>
    if other.path = h.path then
      match h.score, other.score with
      | some new, some old => .ok (if old < new then h :: rest else other :: rest)
      | _, _ => .error .missingKey
    else match keepBest h rest with
      | .ok rest => .ok (other :: rest)
      | .error fault => .error fault

def bestByPath [LT S] [DecidableLT S] (hits : List (Hit S)) :
    Except DataFault (List (Hit S)) :=
  hits.foldlM (fun kept h => keepBest h kept) []

structure Ranked (S : Type) where
  hit : Hit S
  adjusted : S

def rank [Add S] [Sub S] [OfNat S 0] [OfScientific S] (prompt : String) (technical : Bool)
    (h : Hit S) : Except DataFault (Ranked S) := do
  return ⟨h, ← rerank h prompt technical⟩

def sortRanked [LT S] [DecidableLT S] (ranked : List (Ranked S)) : List (Ranked S) :=
  ranked.mergeSort fun a b => !decide (a.adjusted < b.adjusted)

def select [Add S] [Sub S] [OfNat S 0] [OfScientific S] [LT S] [DecidableLT S]
    (minSimilarity : S) (topK : Int) (prompt kind : String) (hits : List (Hit S)) :
    Except DataFault (List (Ranked S)) := do
  let technical := isTechnical prompt kind
  let best ← bestByPath (hits.filter (suits minSimilarity technical))
  let ranked ← best.mapM (rank prompt technical)
  return firstOf topK (sortRanked ranked)

def shown [Add S] [Sub S] [OfNat S 0] [OfScientific S] [LT S] [DecidableLT S]
    (minSimilarity : S) (topK : Int) (prompt kind : String) (hits : List (Hit S)) :
    List (Ranked S) :=
  match select minSimilarity topK prompt kind hits with
  | .ok ranked => ranked
  | .error _ => []

end Groundwork.Retrieval
