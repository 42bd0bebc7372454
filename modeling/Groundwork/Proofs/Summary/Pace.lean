import Groundwork.Decimal.Exact
import Groundwork.Proofs.Summary.Pauses
import Mathlib.Algebra.Order.Ring.Rat
import Mathlib.Data.List.Induction
import Mathlib.Tactic.Linarith

/-!
How fast calls follow each other in a run in batches. Before a call there are as many pauses between
batches as there are batches before it, so calls that are whole batches apart are as many of these pauses
apart, and a stretch of time that is no longer than some of these pauses has no more calls than so many
batches.
-/

namespace Groundwork.Summary

variable {σ : Type} {size count : Nat} {settings : SummarySettings}

/-- The seconds that a pause takes, with the exact value of the setting. No pause takes less than no time. -/
def Pause.span (settings : SummarySettings) (why : Pause) : Rat :=
  max 0 (Decimal.Exact.ofFloat (why.seconds settings)).toRat

def slept (settings : SummarySettings) (events : List Event) : Rat :=
  ((pausesOf events).map (Pause.span settings)).sum

/-- The times of the calls, if nothing but the pauses takes time. -/
def callTimes (settings : SummarySettings) : Rat → List Event → List Rat
  | _, [] => []
  | now, .call _ :: rest => now :: callTimes settings now rest
  | now, .pause why :: rest => callTimes settings (now + why.span settings) rest
  | now, .report _ _ :: rest => callTimes settings now rest

/-- The tokens that are expected for the calls from a start on and before so many seconds later. -/
def tokensWithin (settings : SummarySettings) (start seconds : Rat) (events : List Event) : Int :=
  (callTimes settings 0 events).countP (fun time => start ≤ time ∧ time < start + seconds) *
    settings.estimatedTokensPerRequest

theorem Pause.span_nonneg (why : Pause) (settings : SummarySettings) : 0 ≤ why.span settings :=
  le_max_left _ _

@[simp] theorem slept_append (events later : List Event) :
    slept settings (events ++ later) = slept settings events + slept settings later := by
  simp [slept]

@[simp] theorem slept_call (a : Attempt) (events : List Event) :
    slept settings (.call a :: events) = slept settings events := rfl

theorem breaks_le_slept (settings : SummarySettings) (events : List Event) :
    (pausesOf events).count .betweenBatches * Pause.betweenBatches.span settings ≤
      slept settings events := by
  rw [slept]
  induction pausesOf events with
  | nil => simp
  | cons why rest ih =>
      have own := why.span_nonneg settings
      rw [List.map_cons, List.sum_cons]
      by_cases same : why = .betweenBatches
      · subst same
        rw [List.count_cons_self]
        push_cast
        linarith
      · rw [List.count_cons_of_ne same]
        linarith

/-! Pauses between batches. -/

theorem count_pauseAfter (ends : Bool) (outcome : Outcome) :
    (pauseAfter ends outcome).toList.count .betweenBatches = 0 := by
  cases outcome with
  | ok summary => cases ends <;> rfl
  | error failure =>
      rw [pauseAfter]
      split <;> rfl

theorem count_breaks {attempts : List Attempt} (more : attempts.length < count) :
    (pausesOf (timetable size count 0 attempts)).count .betweenBatches = attempts.length / size := by
  induction attempts using List.reverseRecOn with
  | nil => simp [timetable]
  | append_singleton earlier a ih =>
      rw [List.length_append, List.length_singleton] at more ⊢
      have onward : (earlier.length + 1 == count) = false := by
        rw [beq_eq_false_iff_ne]
        omega
      have own : (pausesOf (afterCall size count earlier.length a)).count .betweenBatches =
          if size ∣ earlier.length + 1 then 1 else 0 := by
        rw [pausesOf_afterCall, List.count_append, count_pauseAfter, endsBatch, onward, Bool.or_false,
          Nat.zero_add]
        by_cases divides : size ∣ earlier.length + 1 <;> simp [divides, pauseAfterBatch]
      rw [timetable_append, pausesOf_append, List.count_append, ih (by omega), timetable, timetable,
        pausesOf_call, List.append_nil, Nat.zero_add, own, Nat.succ_div]

section Record

variable {attempts : List Attempt} {before between after : List Event} {a b : Attempt}

theorem breaks_before
    (split : timetable size count 0 attempts = before ++ .call a :: after)
    (whole : attempts.length = count) :
    (pausesOf before).count .betweenBatches = (callsOf before).length / size := by
  obtain ⟨earlier, later, rfl, rfl, _⟩ := exists_place split
  rw [callsOf_timetable, count_breaks]
  rw [← whole, List.length_append, List.length_cons]
  omega

theorem breaks_between
    (split : timetable size count 0 attempts = before ++ .call a :: (between ++ .call b :: after))
    (whole : attempts.length = count) :
    (callsOf before).length / size + (pausesOf between).count .betweenBatches =
      ((callsOf before).length + (callsOf (.call a :: between)).length) / size := by
  have first := breaks_before split whole
  rw [← List.cons_append, ← List.append_assoc] at split
  have second := breaks_before split whole
  rw [pausesOf_append, pausesOf_call, List.count_append, callsOf_append, List.length_append, first]
    at second
  exact second

theorem breaks_ge {m : Nat} (sized : 0 < size)
    (split : timetable size count 0 attempts = before ++ .call a :: (between ++ .call b :: after))
    (whole : attempts.length = count) (calls : m * size ≤ (callsOf (.call a :: between)).length) :
    m ≤ (pausesOf between).count .betweenBatches := by
  have breaks := breaks_between split whole
  have reached := Nat.div_le_div_right (c := size) (Nat.add_le_add_left calls (callsOf before).length)
  rw [Nat.add_mul_div_right _ _ sized] at reached
  omega

end Record

/-! Times of calls. -/

theorem length_callTimes (settings : SummarySettings) (now : Rat) (events : List Event) :
    (callTimes settings now events).length = (callsOf events).length := by
  induction events generalizing now with
  | nil => rfl
  | cons event rest ih =>
      cases event with
      | call a => exact congrArg (· + 1) (ih now)
      | pause why => exact ih _
      | report done total => exact ih now

theorem exists_call {now time : Rat} {events : List Event} {i : Nat}
    (called : (callTimes settings now events)[i]? = some time) :
    ∃ before a after, events = before ++ .call a :: after ∧ (callsOf before).length = i ∧
      time = now + slept settings before := by
  induction events generalizing now i with
  | nil => simp [callTimes] at called
  | cons event rest ih =>
      have deeper {later : Rat} {k : Nat} (found : (callTimes settings later rest)[k]? = some time) :
          ∃ before a after, event :: rest = (event :: before) ++ .call a :: after ∧
            (callsOf before).length = k ∧ time = later + slept settings before := by
        obtain ⟨before, a, after, rfl, place, same⟩ := ih found
        exact ⟨before, a, after, rfl, place, same⟩
      cases event with
      | call a =>
          cases i with
          | zero =>
              obtain rfl : now = time := by simpa [callTimes] using called
              exact ⟨[], a, rest, rfl, rfl, by simp [slept]⟩
          | succ i =>
              obtain ⟨before, b, after, split, place, same⟩ := deeper (by simpa [callTimes] using called)
              exact ⟨_, b, after, split, congrArg (· + 1) place, same⟩
      | pause why =>
          obtain ⟨before, b, after, split, place, same⟩ := deeper called
          refine ⟨_, b, after, split, place, ?_⟩
          rw [same]
          simp [slept, pausesOf, Event.pause?, add_assoc]
      | report done total =>
          obtain ⟨before, b, after, split, place, same⟩ := deeper called
          exact ⟨_, b, after, split, place, same⟩

/-- If any two times that are `n` places apart are so many seconds apart, a stretch of so many seconds has at
most `n` of them. Its end does not count as a part of it. -/
theorem countP_stretch_le {times : List Rat} {n : Nat} {seconds : Rat}
    (apart : ∀ i j x y, times[i]? = some x → times[j]? = some y → i + n ≤ j → x + seconds ≤ y)
    (start : Rat) : times.countP (fun time => start ≤ time ∧ time < start + seconds) ≤ n := by
  induction times with
  | nil => simp
  | cons x rest ih =>
      by_cases within : start ≤ x ∧ x < start + seconds
      · have none : ((x :: rest).drop n).countP
            (fun time => start ≤ time ∧ time < start + seconds) = 0 := by
          rw [List.countP_eq_zero]
          intro y member inside
          obtain ⟨k, found⟩ := List.mem_iff_getElem?.mp member
          rw [List.getElem?_drop] at found
          have far := apart 0 (n + k) x y rfl found (by omega)
          have early := (of_decide_eq_true inside).2
          linarith [within.1]
        calc (x :: rest).countP (fun time => start ≤ time ∧ time < start + seconds)
            = ((x :: rest).take n).countP (fun time => start ≤ time ∧ time < start + seconds) := by
              rw [← Nat.add_zero (List.countP _ (List.take _ _)), ← none, ← List.countP_append,
                List.take_append_drop]
          _ ≤ ((x :: rest).take n).length := List.countP_le_length
          _ ≤ n := List.length_take_le n _
      · rw [List.countP_cons_of_neg (by simpa using within)]
        exact ih fun i j y z first second far =>
          apart (i + 1) (j + 1) y z first second (by omega)

theorem exists_stretch {before after before' after' : List Event} {a b : Attempt}
    (same : before ++ .call a :: after = before' ++ .call b :: after')
    (earlier : (callsOf before).length ≤ (callsOf before').length) :
    before' = before ∨ ∃ between, before' = before ++ .call a :: between ∧
      after = between ++ .call b :: after' := by
  rcases List.append_eq_append_iff.mp same with ⟨between, rfl, tail⟩ | ⟨between, rfl, tail⟩
  · cases between with
    | nil => exact Or.inl (List.append_nil before)
    | cons event between =>
        obtain ⟨rfl, behind⟩ := List.cons.inj tail
        exact Or.inr ⟨between, rfl, behind⟩
  · cases between with
    | nil => exact Or.inl (List.append_nil before').symm
    | cons event between =>
        obtain ⟨rfl, _⟩ := List.cons.inj tail
        simp only [callsOf_append, callsOf_call, List.length_append, List.length_cons] at earlier
        omega

theorem timetable_stretch (settings : SummarySettings) {attempts : List Attempt} (sized : 0 < size)
    (whole : attempts.length = count) (m : Nat) (start : Rat) :
    (callTimes settings 0 (timetable size count 0 attempts)).countP (fun time =>
      start ≤ time ∧ time < start + m * Pause.betweenBatches.span settings) ≤ m * size := by
  refine countP_stretch_le (fun i j x y first second far => ?_) start
  obtain ⟨before, a, after, split, rfl, rfl⟩ := exists_call first
  obtain ⟨before', b, after', split', rfl, rfl⟩ := exists_call second
  rcases exists_stretch (split.symm.trans split') (by omega) with rfl | ⟨between, rfl, rfl⟩
  · have none : m = 0 := by
      have : m * size = 0 := by omega
      exact (Nat.mul_eq_zero.mp this).resolve_right (by omega)
    simp [none]
  · rw [callsOf_append, List.length_append, Nat.add_le_add_iff_left] at far
    have breaks : (m : Rat) ≤ (pausesOf between).count .betweenBatches := by
      exact_mod_cast breaks_ge sized split whole far
    have waited := mul_le_mul_of_nonneg_right breaks
      (Pause.betweenBatches.span_nonneg settings)
    have paused := breaks_le_slept settings between
    rw [slept_append, slept_call]
    linarith

theorem atOnce_tokens {events : List Event} {start seconds : Rat}
    (fits : fitsAtOnce settings (callsOf events).length = true)
    (tokens : 0 ≤ settings.estimatedTokensPerRequest) :
    tokensWithin settings start seconds events ≤ settings.maxTokensPerMinute := by
  rw [fitsAtOnce, Bool.and_eq_true, fitsBudget, decide_eq_true_eq] at fits
  refine le_trans ?_ fits.1
  rw [tokensWithin, ← length_callTimes settings 0 events]
  exact mul_le_mul_of_nonneg_right (by exact_mod_cast List.countP_le_length) tokens

theorem span_default : Pause.betweenBatches.span {} = 20 := by decide +kernel

theorem batchRecord_minute (w : World (StateM σ)) (requests : List SummaryRequest) (world : σ)
    (start : Rat) :
    tokensWithin {} start 60 (w.batchRecord {} requests world) ≤
      ({} : SummarySettings).maxTokensPerMinute := by
  obtain ⟨attempts, _, record⟩ := batchRecord_eq w {} requests world
  have minute : (60 : Rat) = (3 : Nat) * Pause.betweenBatches.span {} := by
    rw [span_default]
    norm_num
  have few := timetable_stretch {} (batchSize_pos {}) (rfl : attempts.length = _) 3 start
  have three : batchSize {} = 3 := by decide
  rw [← minute, ← record, three] at few
  rw [tokensWithin]
  calc _ ≤ (9 : Int) * 600 := mul_le_mul_of_nonneg_right (by exact_mod_cast few) (by decide)
    _ ≤ _ := by decide

theorem generate_minute {w : World (StateM σ)} {requests : List SummaryRequest}
    (fair : w.recorded.Fair requests) {run : StateT (List Event) (StateM σ) (List SummaryResult)}
    (made : generate w.recorded {} requests = .ok run) (world : σ) (start : Rat) :
    tokensWithin {} start 60 (recordOf run world) ≤ ({} : SummarySettings).maxTokensPerMinute := by
  rcases generate_eq_ok made with ⟨rfl, rfl⟩ | ⟨fits, rfl⟩ | ⟨_, rfl⟩
  · have none : recordOf (pure [] : StateT (List Event) (StateM σ) (List SummaryResult)) world = [] := rfl
    rw [none, tokensWithin, callTimes, List.countP_nil]
    decide
  · obtain ⟨_, happens, attempts, called, asked, _, perm, rfl⟩ :=
      (pool_comes fair (recordOf_gives (pool w.recorded requests) world)).of_ok
    have all : (callsOf (onceEvents called)).length = requests.length := by
      rw [callsOf_onceEvents, perm.length_eq, ← List.length_map (·.request), asked]
    rw [happens.recorded, List.nil_append]
    exact atOnce_tokens (all ▸ fits) (by decide)
  · exact batchRecord_minute w requests world start

/-- Among any `m * batchSize + 1` calls in a row of a run in batches there are `m` pauses between batches,
so the calls are at least that long apart, whatever fails. With the settings that hold if nothing is
configured, no minute has calls for more tokens than it may, however many files there are and whichever
way they are asked for. -/
theorem calls_paced (w : World (StateM σ)) (settings : SummarySettings)
    (requests : List SummaryRequest) (world : σ) :
    (∀ m before a between b after,
      w.batchRecord settings requests world = before ++ .call a :: (between ++ .call b :: after) →
      (callsOf (.call a :: between)).length = m * batchSize settings →
        (pausesOf between).count .betweenBatches = m ∧
          m * (Decimal.Exact.ofFloat settings.rateLimitDelay).toRat ≤ slept settings between) ∧
    ∀ start, tokensWithin {} start 60 (w.batchRecord {} requests world) ≤
        ({} : SummarySettings).maxTokensPerMinute ∧
      (w.recorded.Fair requests → ∃ run, generate w.recorded {} requests = .ok run ∧
        tokensWithin {} start 60 (recordOf run world) ≤
          ({} : SummarySettings).maxTokensPerMinute) := by
  refine ⟨?_, fun start => ⟨batchRecord_minute w requests world start, ?_⟩⟩
  · intro m before a between b after split calls
    obtain ⟨attempts, _, record⟩ := batchRecord_eq w settings requests world
    have breaks : (pausesOf between).count .betweenBatches = m := by
      have sum := breaks_between (record.symm.trans split) rfl
      rw [calls, Nat.add_mul_div_right _ _ (batchSize_pos settings)] at sum
      omega
    refine ⟨breaks, ?_⟩
    have longer : (Decimal.Exact.ofFloat settings.rateLimitDelay).toRat ≤
        Pause.betweenBatches.span settings := le_max_right _ _
    calc (m : Rat) * (Decimal.Exact.ofFloat settings.rateLimitDelay).toRat
        ≤ m * Pause.betweenBatches.span settings :=
          mul_le_mul_of_nonneg_left longer (Nat.cast_nonneg m)
      _ = (pausesOf between).count .betweenBatches * Pause.betweenBatches.span settings := by rw [breaks]
      _ ≤ slept settings between := breaks_le_slept settings between
  · intro fair
    have sized : Sized {} := ⟨by decide, rfl⟩
    have usable : "parallel_max_files" ∉ ({} : SummarySettings).unfit := by decide
    obtain ⟨run, made⟩ := exists_generate sized usable w.recorded requests
    exact ⟨run, made, generate_minute fair made world start⟩

/-- The first call fails, so no other pause comes before that of its batch. -/
theorem calls_paced_poorWorld : ∃ between after,
    poorWorld.batchRecord { concurrency := 1 } [scriptRequest "a.ts", scriptRequest "b.ts"] () =
      .call ⟨scriptRequest "a.ts", .error (.provider (.reported "boom"))⟩ :: (between ++
        .call ⟨scriptRequest "b.ts", .error (.rateLimit (.reported "rate_limit"))⟩ :: after) ∧
    pausesOf between = [.betweenBatches] ∧ 20 ≤ slept { concurrency := 1 } between := by
  have one : batchSize { concurrency := 1 } = 1 := by decide
  have parts : batches (batchSize { concurrency := 1 }) [scriptRequest "a.ts", scriptRequest "b.ts"] =
      [[scriptRequest "a.ts"], [scriptRequest "b.ts"]] := by
    simp [one, batches]
  have record : poorWorld.batchRecord { concurrency := 1 }
      [scriptRequest "a.ts", scriptRequest "b.ts"] () = [] ++
        Event.call ⟨scriptRequest "a.ts", .error (.provider (.reported "boom"))⟩ ::
          ([Event.report 1 2, Event.pause .betweenBatches] ++
            Event.call ⟨scriptRequest "b.ts", .error (.rateLimit (.reported "rate_limit"))⟩ ::
              [Event.pause .cooldown, Event.report 2 2]) := by
    rw [World.batchRecord, inBatches, parts]
    rfl
  have paced := (calls_paced poorWorld { concurrency := 1 } _ ()).1 1 _ _ _ _ _ record
    (by rw [one]; rfl)
  have twenty : (Decimal.Exact.ofFloat (20.0 : Float)).toRat = 20 := by decide +kernel
  refine ⟨_, _, record, rfl, ?_⟩
  simpa [twenty] using paced.2

end Groundwork.Summary
