import Groundwork.Proofs.Batch
import Groundwork.Proofs.Summary.Runs

/-!
The pauses of a run in batches. What stands between two calls follows from the place of the first one among
the batches and from what came of it, so the record of a run can be read call by call.
-/

namespace Groundwork.Summary

variable {σ : Type}

def World.recorded (w : World (StateM σ)) : World (StateT (List Event) (StateM σ)) where
  ask request := recording (fun outcome => .call ⟨request, outcome⟩) (w.ask request)
  pause why := recording (fun _ => .pause why) (w.pause why)
  report done total := recording (fun _ => .report done total) (w.report done total)
  turns := w.turns

def recordOf {α : Type} (run : StateT (List Event) (StateM σ) α) (world : σ) : List Event :=
  ((run.run []).run world).1.2

theorem recordOf_gives {α : Type} (run : StateT (List Event) (StateM σ) α) (world : σ) :
    Traced.Gives run [] (.ok ((run.run []).run world).1.1) (recordOf run world) :=
  ⟨_, rfl, world, _, rfl⟩

def Event.pause? : Event → Option Pause
  | pause why => some why
  | _ => none

def pausesOf (events : List Event) : List Pause := events.filterMap Event.pause?

section Parts

variable (events later : List Event)

@[simp] theorem pausesOf_nil : pausesOf [] = [] := rfl

@[simp] theorem pausesOf_append : pausesOf (events ++ later) = pausesOf events ++ pausesOf later :=
  List.filterMap_append

@[simp] theorem pausesOf_call (a : Attempt) : pausesOf (.call a :: events) = pausesOf events := rfl

@[simp] theorem pausesOf_report (done total : Nat) :
    pausesOf (.report done total :: events) = pausesOf events := rfl

@[simp] theorem pausesOf_pauses (whys : List Pause) : pausesOf (whys.map .pause) = whys := by
  induction whys with
  | nil => rfl
  | cons why rest ih => exact congrArg (why :: ·) ih

end Parts

theorem Happens.recorded {w : World (StateM σ)} {events before after : List Event}
    (happens : Happens w.recorded before events after) : after = before ++ events := by
  induction happens with
  | nothing => simp
  | call gives _ ih =>
      obtain ⟨_, ⟨⟩, ran⟩ := gives
      rw [ih, (recording_ran ran).1, List.append_assoc, List.singleton_append]
  | pause gives _ ih =>
      obtain ⟨_, ⟨⟩, ran⟩ := gives
      rw [ih, (recording_ran ran).1, List.append_assoc, List.singleton_append]
  | report gives _ ih =>
      obtain ⟨_, ⟨⟩, ran⟩ := gives
      rw [ih, (recording_ran ran).1, List.append_assoc, List.singleton_append]

/-! What follows a call by its place among all calls. -/

def endsBatch (size count place : Nat) : Bool := size ∣ place + 1 || place + 1 == count

def afterCall (size count place : Nat) (a : Attempt) : List Event :=
  (pauseAfter (endsBatch size count place) a.outcome).toList.map .pause ++
    if endsBatch size count place then
      .report (place + 1) count :: (pauseAfterBatch (place + 1 == count)).toList.map .pause
    else []

def timetable (size count place : Nat) : List Attempt → List Event
  | [] => []
  | a :: rest => .call a :: (afterCall size count place a ++ timetable size count (place + 1) rest)

variable {size count place : Nat}

@[simp] theorem callsOf_afterCall (a : Attempt) : callsOf (afterCall size count place a) = [] := by
  rw [afterCall]
  split <;> simp

@[simp] theorem callsOf_timetable (attempts : List Attempt) :
    callsOf (timetable size count place attempts) = attempts := by
  induction attempts generalizing place with
  | nil => rfl
  | cons a rest ih => simp [timetable, ih]

theorem timetable_append (attempts later : List Attempt) :
    timetable size count place (attempts ++ later) = timetable size count place attempts ++
      timetable size count (place + attempts.length) later := by
  induction attempts generalizing place with
  | nil => rfl
  | cons a rest ih =>
      rw [List.cons_append, timetable, timetable, ih, List.cons_append, List.append_assoc,
        List.length_cons, Nat.add_assoc, Nat.add_comm 1]

theorem batchEvents_timetable {batch : List Attempt} (some : batch ≠ [])
    (ends : ∀ k < batch.length, endsBatch size count (place + k) = decide (k + 1 = batch.length)) :
    batchEvents batch ++ .report (place + batch.length) count ::
        (pauseAfterBatch (place + batch.length == count)).toList.map .pause =
      timetable size count place batch := by
  induction batch generalizing place with
  | nil => exact absurd rfl some
  | cons a rest ih =>
      have here := ends 0 (by simp)
      rw [Nat.add_zero, List.length_cons] at here
      rw [batchEvents, timetable, afterCall, here]
      cases rest with
      | nil => simp [batchEvents, timetable]
      | cons b others =>
          have later (k : Nat) (bound : k < (b :: others).length) :
              endsBatch size count (place + 1 + k) = decide (k + 1 = (b :: others).length) := by
            have next := ends (k + 1) (by simpa using bound)
            rw [Nat.add_assoc, Nat.add_comm 1 k, next]
            simp
          have rest := ih (by simp) later
          rw [← rest]
          simp [Nat.add_assoc, Nat.add_comm 1]

theorem endsBatch_within {length k : Nat} (starts : size ∣ place) (few : length ≤ size)
    (closes : length = size ∨ place + length = count) (room : place + length ≤ count)
    (bound : k < length) : endsBatch size count (place + k) = decide (k + 1 = length) := by
  rw [Bool.eq_iff_iff, endsBatch, Bool.or_eq_true, decide_eq_true_eq, decide_eq_true_eq, beq_iff_eq]
  constructor
  · rintro (divides | last)
    · rw [Nat.add_assoc, Nat.dvd_add_right starts] at divides
      have := Nat.le_of_dvd (by omega) divides
      omega
    · omega
  · intro last
    rcases closes with filled | total
    · left
      rw [Nat.add_assoc, last, filled]
      exact Nat.dvd_add starts (Nat.dvd_refl size)
    · right
      omega

theorem runEvents_timetable {groups : List (List Attempt)} (packed : Packed size groups)
    (full : ∀ batch ∈ groups, batch ≠ []) (starts : size ∣ place)
    (total : place + groups.flatten.length = count) :
    runEvents count place groups = timetable size count place groups.flatten := by
  induction packed generalizing place with
  | nil => rfl
  | @last chunk few =>
      rw [List.flatten_singleton] at total ⊢
      rw [← batchEvents_timetable (full chunk (by simp))]
      · simp [runEvents, total]
      · exact fun k bound => endsBatch_within starts few (.inr total) (Nat.le_of_eq total) bound
  | @cons chunk rest filled later ih =>
      rw [List.flatten_cons, List.length_append, ← Nat.add_assoc] at total
      have next : size ∣ place + chunk.length := by
        rw [filled]
        exact Nat.dvd_add starts (Nat.dvd_refl size)
      have last : (place + chunk.length == count) = rest.isEmpty := by
        cases rest with
        | nil => simpa using total
        | cons batch others =>
            have := List.length_pos_of_ne_nil (full batch (by simp))
            rw [List.flatten_cons, List.length_append] at total
            simp only [List.isEmpty_cons, beq_eq_false_iff_ne]
            omega
      rw [List.flatten_cons, timetable_append, runEvents,
        ih (fun batch member => full batch (List.mem_cons_of_mem chunk member)) next total,
        ← batchEvents_timetable (full chunk (by simp)), last]
      · simp
      · exact fun k bound => endsBatch_within starts (Nat.le_of_eq filled) (.inl filled) (by omega) bound

theorem exists_between {events later before after : List Event} {a : Attempt}
    (none : callsOf events = []) (split : events ++ later = before ++ .call a :: after) :
    ∃ between, before = events ++ between ∧ later = between ++ .call a :: after := by
  rcases List.append_eq_append_iff.mp split with ⟨between, same, tail⟩ | ⟨own, rfl, tail⟩
  · exact ⟨between, same, tail⟩
  · cases own with
    | nil => exact ⟨[], by simp, tail.symm⟩
    | cons event own =>
        obtain ⟨rfl, _⟩ := List.cons.inj tail
        simp at none

theorem exists_place {attempts : List Attempt} {before after : List Event} {a : Attempt}
    (split : timetable size count place attempts = before ++ .call a :: after) :
    ∃ earlier later, attempts = earlier ++ a :: later ∧
      before = timetable size count place earlier ∧
      after = afterCall size count (place + earlier.length) a ++
        timetable size count (place + earlier.length + 1) later := by
  induction attempts generalizing place before with
  | nil => simp [timetable] at split
  | cons first rest ih =>
      rw [timetable] at split
      cases before with
      | nil =>
          obtain ⟨same, rfl⟩ := List.cons.inj split
          obtain rfl := Event.call.inj same
          exact ⟨[], rest, rfl, rfl, rfl⟩
      | cons event before =>
          obtain ⟨rfl, onward⟩ := List.cons.inj split
          obtain ⟨between, rfl, tail⟩ := exists_between (callsOf_afterCall first) onward
          obtain ⟨earlier, later, rfl, rfl, rfl⟩ := ih tail
          refine ⟨first :: earlier, later, rfl, rfl, ?_⟩
          simp [Nat.add_assoc, Nat.add_comm 1]

theorem pausesOf_afterCall (a : Attempt) : pausesOf (afterCall size count place a) =
    (pauseAfter (endsBatch size count place) a.outcome).toList ++
      if endsBatch size count place then (pauseAfterBatch (place + 1 == count)).toList else [] := by
  rw [afterCall]
  split <;> simp

theorem batchSize_pos (settings : SummarySettings) : 0 < batchSize settings := by
  unfold batchSize
  split
  · omega
  · split <;> omega

def World.batchRecord (w : World (StateM σ)) (settings : SummarySettings)
    (requests : List SummaryRequest) (world : σ) : List Event :=
  recordOf (inBatches w.recorded settings requests) world

theorem batchRecord_eq (w : World (StateM σ)) (settings : SummarySettings)
    (requests : List SummaryRequest) (world : σ) : ∃ attempts : List Attempt,
      attempts.map (·.request) = requests ∧ w.batchRecord settings requests world =
        timetable (batchSize settings) attempts.length 0 attempts := by
  obtain ⟨_, happens, groups, grouped, _, rfl⟩ :=
    (inBatches_comes (recordOf_gives (inBatches w.recorded settings requests) world)).of_ok
  have asked : groups.flatten.map (·.request) = requests := by
    rw [List.map_flatten, grouped, batches_flatten]
  have packed : Packed (batchSize settings) groups := by
    refine (batches_packed (batchSize_pos settings) requests).of_lengths ?_
    rw [← grouped, List.forall₂_map_left_iff, List.forall₂_same]
    exact fun group _ => (List.length_map _).symm
  have full : ∀ group ∈ groups, group ≠ [] := by
    intro group member none
    have among := List.mem_map_of_mem (f := List.map (·.request)) member
    rw [grouped] at among
    exact nonempty_of_mem_batches among (by rw [none, List.map_nil])
  have count : requests.length = groups.flatten.length := by
    rw [← asked, List.length_map]
  refine ⟨groups.flatten, asked, ?_⟩
  rw [World.batchRecord, happens.recorded, List.nil_append, count]
  exact runEvents_timetable packed full (Nat.dvd_zero _) (Nat.zero_add _)

def Attempt.hasFailed (a : Attempt) : Bool := !a.result.generated

def Attempt.isLimited (a : Attempt) : Bool :=
  match a.outcome with
  | .ok _ => false
  | .error failure => isRateLimit failure

theorem pauseAfter_eq_none_iff (ends : Bool) (a : Attempt) :
    pauseAfter ends a.outcome = none ↔ (ends = true ∧ a.hasFailed = false) ∨
      (a.hasFailed = true ∧ a.isLimited = false) := by
  rw [Attempt.hasFailed, Attempt.isLimited, Attempt.result]
  cases a.outcome with
  | ok summary => cases ends <;> simp [pauseAfter]
  | error failure => simp [pauseAfter]

theorem pauseAfter_end (a : Attempt) :
    pauseAfter true a.outcome = if a.isLimited then some .cooldown else none := by
  rw [Attempt.isLimited]
  cases a.outcome <;> rfl

theorem between_eq {later : List Attempt} {between after : List Event} {a b : Attempt} {next : Nat}
    (split : afterCall size count place a ++ timetable size count next later =
      between ++ .call b :: after) (none : callsOf between = []) :
    later ≠ [] ∧ between = afterCall size count place a := by
  obtain ⟨more, rfl, tail⟩ := exists_between (callsOf_afterCall a) split
  obtain ⟨earlier, others, rfl, rfl, _⟩ := exists_place tail
  rw [callsOf_append, callsOf_afterCall, callsOf_timetable, List.nil_append] at none
  subst none
  exact ⟨by simp, by simp [timetable]⟩

/-- Pauses stand between the calls only, and between all of them. -/
structure Spaced (record : List Event) : Prop where
  inside : ∀ before a between b after, record = before ++ .call a :: (between ++ .call b :: after) →
    callsOf between = [] → pausesOf between ≠ []
  outside : ∀ before a after, record = before ++ .call a :: after →
    (callsOf before = [] → pausesOf before = []) ∧ (callsOf after = [] → pausesOf after = [])

/-- Nothing happens before the first call. Between two calls that follow each other there is a pause unless
the first one fails, and not by a rate limit, before its batch ends. After the last call there is none
unless it fails by a rate limit. -/
theorem inBatches_pauses (w : World (StateM σ)) (settings : SummarySettings)
    (requests : List SummaryRequest) (world : σ) :
    (callsOf (w.batchRecord settings requests world)).map (·.request) = requests ∧
    (requests = [] → w.batchRecord settings requests world = []) ∧
    ∀ before a after, w.batchRecord settings requests world = before ++ .call a :: after →
      (callsOf before = [] → before = []) ∧
      (∀ between b later, after = between ++ .call b :: later → callsOf between = [] →
        (pausesOf between = [] ↔ a.hasFailed = true ∧ a.isLimited = false ∧
          ¬ batchSize settings ∣ (callsOf before).length + 1)) ∧
      (callsOf after = [] → pausesOf after = if a.isLimited then [.cooldown] else []) := by
  obtain ⟨attempts, asked, record⟩ := batchRecord_eq w settings requests world
  rw [record, callsOf_timetable]
  refine ⟨asked, ?_, ?_⟩
  · rintro rfl
    rw [List.map_eq_nil_iff] at asked
    rw [asked, timetable]
  · intro before a after split
    obtain ⟨earlier, later, rfl, rfl, rfl⟩ := exists_place split
    rw [callsOf_timetable]
    refine ⟨?_, ?_, ?_⟩
    · rintro rfl
      rfl
    · intro between b after gap none
      obtain ⟨more, rfl⟩ := between_eq gap none
      have onward : (0 + earlier.length + 1 == (earlier ++ a :: later).length) = false := by
        have := List.length_pos_of_ne_nil more
        simp only [List.length_append, List.length_cons, beq_eq_false_iff_ne]
        omega
      have ends : endsBatch (batchSize settings) (earlier ++ a :: later).length (0 + earlier.length) =
          decide (batchSize settings ∣ earlier.length + 1) := by
        rw [endsBatch, onward, Bool.or_false, Nat.zero_add]
      rw [pausesOf_afterCall, List.append_eq_nil_iff, Option.toList_eq_nil_iff, pauseAfter_eq_none_iff,
        ends, onward]
      by_cases divides : batchSize settings ∣ earlier.length + 1 <;> simp [divides, pauseAfterBatch]
    · intro last
      rw [callsOf_append, callsOf_afterCall, callsOf_timetable, List.nil_append] at last
      subst last
      have ends : endsBatch (batchSize settings) (earlier ++ [a]).length (0 + earlier.length) = true := by
        simp [endsBatch]
      rw [pausesOf_append, pausesOf_afterCall, ends, pauseAfter_end]
      cases a.isLimited <;> simp [timetable, pauseAfterBatch]

def scriptRequest (path : String) : SummaryRequest :=
  ⟨path, "", "typescript", { path, language := "typescript" }⟩

def poorWorld : World (StateM Unit) where
  ask request :=
    return .error (if request.path = "a.ts" then .provider (.reported "boom")
      else .rateLimit (.reported "rate_limit"))
  pause _ := return ()
  report _ _ := return ()

theorem poorRecord_eq : poorWorld.batchRecord {} [scriptRequest "a.ts", scriptRequest "b.ts"] () =
    [.call ⟨scriptRequest "a.ts", .error (.provider (.reported "boom"))⟩,
      .call ⟨scriptRequest "b.ts", .error (.rateLimit (.reported "rate_limit"))⟩,
      .pause .cooldown, .report 2 2] := by
  rw [World.batchRecord, inBatches]
  have three : batchSize {} = 3 := by decide
  have parts : batches (batchSize {}) [scriptRequest "a.ts", scriptRequest "b.ts"] =
      [[scriptRequest "a.ts", scriptRequest "b.ts"]] := by
    simp [three, batches]
  rw [parts]
  rfl

/-- The two calls follow each other at once, and a pause follows the last one. -/
theorem poorRecord_unspaced :
    ¬ Spaced (poorWorld.batchRecord {} [scriptRequest "a.ts", scriptRequest "b.ts"] ()) := by
  intro spaced
  rw [poorRecord_eq] at spaced
  exact spaced.inside [] _ [] _ _ rfl rfl rfl

end Groundwork.Summary
