import Groundwork.Batch
import Groundwork.Summary.Request

/-!
Summaries from a provider. Few files are asked for at once; more of them go out one after the other in
batches, with pauses that keep the calls under the limits of the provider. A file that fails is not
asked for again and does not affect the others. In a world where a pause can fail, the run ends with it.
-/

namespace Groundwork

structure SummaryResult where
  path : String
  summary : String
  generated : Bool
  error : Option String := none
  deriving DecidableEq, Repr

def SummaryResult.toJson (r : SummaryResult) : Json :=
  .obj [("path", .str r.path), ("summary", .str r.summary), ("generated", .bool r.generated),
    ("error", .orNull (r.error.map .str))]

namespace Summary

abbrev Outcome := Except Failure String

structure Attempt where
  request : SummaryRequest
  outcome : Outcome

def Attempt.result (a : Attempt) : SummaryResult :=
  match a.outcome with
  | .ok summary => ⟨a.request.path, summary, true, none⟩
  | .error failure => ⟨a.request.path, "", false, some failure.message⟩

inductive Pause where
  | betweenCalls
  | betweenBatches
  | cooldown
  deriving DecidableEq, Repr

def Pause.seconds (settings : SummarySettings) : Pause → Float
  | betweenCalls => settings.interCallDelay
  | betweenBatches => settings.rateLimitDelay
  | cooldown => settings.rateLimitCooldown

def Pause.setting : Pause → String
  | betweenCalls => "inter_call_delay"
  | betweenBatches => "rate_limit_delay"
  | cooldown => "rate_limit_cooldown"

/-- Whether a failure is a rate limit or speaks of one. -/
def isRateLimit : Failure → Bool
  | .rateLimit _ => true
  | failure => Text.contains failure.message "rate_limit"

/-- The pause after a call. After a success there is one unless the batch ends; after a failure only a
rate limit makes for one. -/
def pauseAfter (batchEnds : Bool) : Outcome → Option Pause
  | .ok _ => if batchEnds then none else some .betweenCalls
  | .error failure => if isRateLimit failure then some .cooldown else none

def pauseAfterBatch (last : Bool) : Option Pause := if last then none else some .betweenBatches

def callsPerMinute (settings : SummarySettings) : Int :=
  Int.fdiv settings.maxTokensPerMinute (max 1 settings.estimatedTokensPerRequest)

/-- How many calls go into a batch. A double counts if it is more than a minute allows, or no more than
one. -/
def batchSize (settings : SummarySettings) : Nat :=
  match settings.concurrency with
  | .whole n => (max 1 (min n (callsPerMinute settings))).toNat
  | .double x =>
    if Float.ofInt (callsPerMinute settings) < x then (max 1 (callsPerMinute settings)).toNat else 1

def hasWholeSize (settings : SummarySettings) : Bool :=
  match settings.concurrency with
  | .whole _ => true
  | .double x => Float.ofInt (callsPerMinute settings) < x || !(1.0 < x)

def fitsBudget (settings : SummarySettings) (count : Nat) : Bool :=
  count * settings.estimatedTokensPerRequest ≤ settings.maxTokensPerMinute

def fitsAtOnce (settings : SummarySettings) (count : Nat) : Bool :=
  fitsBudget settings count && count ≤ settings.parallelMaxFiles

/-- What a run works with: it asks for texts, pauses, and reports how many of all results are there.
Calls that are made at once come about by turns. -/
structure World (m : Type → Type) where
  ask : SummaryRequest → m Outcome
  pause : Pause → m Unit
  report : Nat → Nat → m Unit
  turns : Nat → List Nat := List.range

variable {m : Type → Type} [Monad m]

def attempt (w : World m) (request : SummaryRequest) : m Attempt := do
  return ⟨request, ← w.ask request⟩

/-- The run of a pool with a worker for each request. The results stand in the order of the requests,
whatever the order of the calls. -/
def pool (w : World m) (requests : List SummaryRequest) : m (List SummaryResult) := do
  let turns := w.turns requests.length
  let attempts ← (turns.filterMap (requests[·]?)).mapM (attempt w)
  let finished := turns.zip (attempts.map (·.result))
  let results := (List.range requests.length).filterMap fun place => finished.lookup place
  w.report results.length requests.length
  return results

/-- Asks for all summaries at once. A pool has at least one worker, so there is none for no requests. -/
def atOnce (w : World m) (requests : List SummaryRequest) :
    Except DataFault (m (List SummaryResult)) :=
  if requests.isEmpty then .error .badValue else .ok (pool w requests)

def pauseFor (w : World m) : Option Pause → m Unit
  | some why => w.pause why
  | none => return ()

def takeBatch (w : World m) : List SummaryRequest → m (List SummaryResult)
  | [] => return []
  | request :: rest => do
    let a ← attempt w request
    pauseFor w (pauseAfter rest.isEmpty a.outcome)
    return a.result :: (← takeBatch w rest)

/-- Goes on with the batches that are left. Each one closes with a report and, unless it is the last,
a pause. -/
def takeBatches (w : World m) (total : Nat) (results : List SummaryResult) :
    List (List SummaryRequest) → m (List SummaryResult)
  | [] => return results
  | batch :: rest => do
    let results := results ++ (← takeBatch w batch)
    w.report results.length total
    pauseFor w (pauseAfterBatch rest.isEmpty)
    takeBatches w total results rest

def inBatches (w : World m) (settings : SummarySettings) (requests : List SummaryRequest) :
    m (List SummaryResult) :=
  takeBatches w requests.length [] (batches (batchSize settings) requests)

def batched (w : World m) (settings : SummarySettings) (requests : List SummaryRequest) :
    Except DataFault (m (List SummaryResult)) := do
  needed settings.unfit ["max_tokens_per_minute", "estimated_tokens_per_request", "concurrency"]
  if hasWholeSize settings then return inBatches w settings requests else throw .wrongKind

/-- A run with a result for each request, or what keeps it from starting. Without requests nothing is
done. -/
def generate (w : World m) (settings : SummarySettings) (requests : List SummaryRequest) :
    Except DataFault (m (List SummaryResult)) :=
  if requests.isEmpty then return return []
  else do
    needed settings.unfit ["estimated_tokens_per_request", "max_tokens_per_minute"]
    if fitsBudget settings requests.length then needed settings.unfit ["parallel_max_files"]
    if fitsAtOnce settings requests.length then atOnce w requests else batched w settings requests

def requestsFor (files : List FileRecord) : List SummaryRequest :=
  (files.filter (·.needsSummary == some true)).map fun r => ⟨r.path, r.content, r.language, r⟩

/-- A record with the result for its path, if there is one: the last of several. -/
def applyTo (results : List SummaryResult) (r : FileRecord) : FileRecord :=
  match results.reverse.find? (·.path == r.path) with
  | none => r
  | some result =>
    if result.generated then
      { r with description := result.summary, summarySource := some .generated }
    else { r with summarySource := some .ruleBased }

def apply (records : List FileRecord) (results : List SummaryResult) : List FileRecord :=
  records.map (applyTo results)

end Summary

end Groundwork
