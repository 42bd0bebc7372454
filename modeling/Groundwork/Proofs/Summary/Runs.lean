import Groundwork.Proofs.Batch
import Groundwork.Proofs.Each
import Groundwork.Proofs.Ran
import Groundwork.Summary.Generation
import Mathlib.Data.List.Forall2

/-!
What happens in a run of summaries, whichever way it goes: calls with what came of them, pauses and
reports, in order. A run comes to its end unless one of these fails.
-/

namespace Groundwork.Summary

open Traced (Gives)

variable {m : Type → Type} [Monad m] {τ : Type}

inductive Event where
  | call (a : Attempt)
  | pause (why : Pause)
  | report (done total : Nat)

def Event.call? : Event → Option Attempt
  | call a => some a
  | _ => none

def callsOf (events : List Event) : List Attempt := events.filterMap Event.call?

theorem Attempt.result_path (a : Attempt) : a.result.path = a.request.path := by
  rw [result]
  cases a.outcome <;> rfl

inductive Happens [Traced m τ] (w : World m) : τ → List Event → τ → Prop
  | nothing (t : τ) : Happens w t [] t
  | call {a : Attempt} {rest : List Event} {t middle t' : τ} :
      Gives (w.ask a.request) t (.ok a.outcome) middle → Happens w middle rest t' →
      Happens w t (.call a :: rest) t'
  | pause {why : Pause} {rest : List Event} {t middle t' : τ} :
      Gives (w.pause why) t (.ok ()) middle → Happens w middle rest t' →
      Happens w t (.pause why :: rest) t'
  | report {done total : Nat} {rest : List Event} {t middle t' : τ} :
      Gives (w.report done total) t (.ok ()) middle → Happens w middle rest t' →
      Happens w t (.report done total :: rest) t'

inductive Breaks [Traced m τ] (w : World m) : τ → Failure → τ → Prop
  | call {request : SummaryRequest} {failure : Failure} {t t' : τ} :
      Gives (w.ask request) t (.error failure) t' → Breaks w t failure t'
  | pause {why : Pause} {failure : Failure} {t t' : τ} :
      Gives (w.pause why) t (.error failure) t' → Breaks w t failure t'
  | report {done total : Nat} {failure : Failure} {t t' : τ} :
      Gives (w.report done total) t (.error failure) t' → Breaks w t failure t'

def Stops [Traced m τ] (w : World m) (t : τ) (events : List Event) (failure : Failure) (t' : τ) : Prop :=
  ∃ middle, Happens w t events middle ∧ Breaks w middle failure t'

def onceEvents (called : List Attempt) : List Event :=
  called.map .call ++ [.report called.length called.length]

def batchEvents : List Attempt → List Event
  | [] => []
  | a :: rest =>
    .call a :: ((pauseAfter rest.isEmpty a.outcome).toList.map .pause ++ batchEvents rest)

def runEvents (total : Nat) : Nat → List (List Attempt) → List Event
  | _, [] => []
  | done, batch :: rest =>
    batchEvents batch ++ .report (done + batch.length) total ::
      ((pauseAfterBatch rest.isEmpty).toList.map .pause ++
        runEvents total (done + batch.length) rest)

section Calls

variable (events later : List Event)

@[simp] theorem callsOf_nil : callsOf [] = [] := rfl

@[simp] theorem callsOf_append : callsOf (events ++ later) = callsOf events ++ callsOf later :=
  List.filterMap_append

@[simp] theorem callsOf_call (a : Attempt) : callsOf (.call a :: events) = a :: callsOf events := rfl

@[simp] theorem callsOf_pause (why : Pause) : callsOf (.pause why :: events) = callsOf events := rfl

@[simp] theorem callsOf_report (done total : Nat) :
    callsOf (.report done total :: events) = callsOf events := rfl

@[simp] theorem callsOf_calls (called : List Attempt) : callsOf (called.map .call) = called := by
  induction called with
  | nil => rfl
  | cons a rest ih => exact congrArg (a :: ·) ih

@[simp] theorem callsOf_pauses (whys : List Pause) : callsOf (whys.map .pause) = [] := by
  induction whys with
  | nil => rfl
  | cons why rest ih => exact ih

theorem callsOf_onceEvents (called : List Attempt) : callsOf (onceEvents called) = called := by
  simp [onceEvents]

theorem callsOf_batchEvents (attempts : List Attempt) : callsOf (batchEvents attempts) = attempts := by
  induction attempts with
  | nil => rfl
  | cons a rest ih => simp [batchEvents, ih]

theorem callsOf_runEvents (total done : Nat) (groups : List (List Attempt)) :
    callsOf (runEvents total done groups) = groups.flatten := by
  induction groups generalizing done with
  | nil => rfl
  | cons batch rest ih => simp [runEvents, callsOf_batchEvents, ih]

end Calls

variable [Traced m τ] {w : World m} {t middle t' : τ} {failure : Failure}

theorem Happens.append {events later : List Event} (first : Happens w t events middle)
    (second : Happens w middle later t') : Happens w t (events ++ later) t' := by
  induction first with
  | nothing => exact second
  | call gives _ ih => exact .call gives (ih second)
  | pause gives _ ih => exact .pause gives (ih second)
  | report gives _ ih => exact .report gives (ih second)

theorem Breaks.stops (breaks : Breaks w t failure t') : Stops w t [] failure t' := ⟨t, .nothing t, breaks⟩

theorem Stops.after {events later : List Event} (stops : Stops w middle later failure t')
    (first : Happens w t events middle) : Stops w t (events ++ later) failure t' := by
  obtain ⟨last, happens, breaks⟩ := stops
  exact ⟨last, first.append happens, breaks⟩

structure World.Quiet (w : World m) : Prop where
  ask : ∀ {request t result t'}, Gives (w.ask request) t result t' → t' = t
  pause : ∀ {why t result t'}, Gives (w.pause why) t result t' → t' = t
  report : ∀ {done total t result t'}, Gives (w.report done total) t result t' → t' = t

theorem Happens.quiet {events : List Event} (happens : Happens w t events t') (quiet : w.Quiet) :
    t' = t := by
  induction happens with
  | nothing => rfl
  | call gives _ ih => exact ih.trans (quiet.ask gives)
  | pause gives _ ih => exact ih.trans (quiet.pause gives)
  | report gives _ ih => exact ih.trans (quiet.report gives)

theorem Stops.quiet {events : List Event} (stops : Stops w t events failure t') (quiet : w.Quiet) :
    t' = t := by
  obtain ⟨middle, happens, breaks⟩ := stops
  obtain rfl := happens.quiet quiet
  cases breaks with
  | call gives => exact quiet.ask gives
  | pause gives => exact quiet.pause gives
  | report gives => exact quiet.report gives

theorem Happens.answered {events : List Event} (happens : Happens w t events t') :
    ∀ a ∈ callsOf events, ∃ s s', Gives (w.ask a.request) s (.ok a.outcome) s' := by
  induction happens with
  | nothing => simp
  | call gives _ ih =>
      intro other member
      rcases List.mem_cons.mp member with rfl | later
      · exact ⟨_, _, gives⟩
      · exact ih other later
  | pause _ _ ih => exact ih
  | report _ _ ih => exact ih

/-- What a part of a run comes to: what it makes, or something fails before it has sent more than the
requests it is for. -/
def Comes {α : Type} (w : World m) (requests : List SummaryRequest) (made : List Event → α → Prop)
    (t : τ) (result : Except Failure α) (t' : τ) : Prop :=
  (∃ a events, result = .ok a ∧ Happens w t events t' ∧ made events a) ∨
    ∃ failure events, result = .error failure ∧ Stops w t events failure t' ∧
      (callsOf events).map (·.request) <+: requests

section Parts

variable {α β : Type} {sent requests : List SummaryRequest}

theorem comes_pure {a : α} {made : List Event → α → Prop} {result : Except Failure α}
    (gives : Gives (pure a : m α) t result t') (nothing : made [] a) :
    Comes w requests made t result t' := by
  obtain ⟨rfl, rfl⟩ := Traced.of_pure gives
  exact Or.inl ⟨a, [], rfl, .nothing _, nothing⟩

theorem comes_bind {x : m α} {f : α → m β} {done : List Event → α → Prop}
    {made : List Event → β → Prop} {result : Except Failure β}
    (gives : Gives (x >>= f) t result t')
    (first : ∀ {result t'}, Gives x t result t' → Comes w sent done t result t')
    (within : sent <+: requests)
    (second : ∀ {a events middle result t'}, done events a → Gives (f a) middle result t' →
      ∃ rest, (callsOf events).map (·.request) ++ rest <+: requests ∧
        Comes w rest (fun later => made (events ++ later)) middle result t') :
    Comes w requests made t result t' := by
  rcases Traced.of_bind gives with ⟨failure, failed, rfl⟩ | ⟨a, middle, given, next⟩
  · rcases first failed with ⟨_, _, same, _⟩ | ⟨_, events, same, stops, few⟩
    · cases same
    · cases same
      exact Or.inr ⟨failure, events, rfl, stops, few.trans within⟩
  · rcases first given with ⟨_, events, same, happens, isDone⟩ | ⟨_, _, same, _⟩
    · cases same
      obtain ⟨rest, few, comes⟩ := second isDone next
      rcases comes with ⟨b, later, rfl, onward, isMade⟩ | ⟨failure, later, rfl, stops, sent⟩
      · exact Or.inl ⟨b, _, rfl, happens.append onward, isMade⟩
      · refine Or.inr ⟨failure, _, rfl, stops.after happens, ?_⟩
        rw [callsOf_append, List.map_append]
        exact ((List.prefix_append_right_inj _).mpr sent).trans few
    · cases same

theorem Comes.of_ok {made : List Event → α → Prop} {a : α} (comes : Comes w requests made t (.ok a) t') :
    ∃ events, Happens w t events t' ∧ made events a := by
  rcases comes with ⟨_, events, ⟨⟩, found⟩ | ⟨_, _, same, _⟩
  · exact ⟨events, found⟩
  · cases same

theorem Comes.imp {made others : List Event → α → Prop} {result : Except Failure α}
    (comes : Comes w requests made t result t') (weaker : ∀ events a, made events a → others events a) :
    Comes w requests others t result t' := by
  rcases comes with ⟨a, events, same, happens, isMade⟩ | stopped
  · exact Or.inl ⟨a, events, same, happens, weaker events a isMade⟩
  · exact Or.inr stopped

end Parts

section Batches

variable {batch requests : List SummaryRequest}

theorem attempt_comes {request : SummaryRequest} {result : Except Failure Attempt}
    (gives : Gives (attempt w request) t result t') :
    Comes w [request] (fun events a => a.request = request ∧ events = [.call a]) t result t' := by
  rcases Traced.of_bind gives with ⟨failure, failed, rfl⟩ | ⟨outcome, middle, asked, made⟩
  · exact Or.inr ⟨failure, [], rfl, (Breaks.call failed).stops, List.nil_prefix⟩
  · obtain ⟨rfl, rfl⟩ := Traced.of_pure made
    exact Or.inl ⟨⟨request, outcome⟩, _, rfl, .call asked (.nothing _), rfl, rfl⟩

theorem pauseFor_comes {why : Option Pause} {result : Except Failure Unit}
    (gives : Gives (pauseFor w why) t result t') :
    Comes w [] (fun events _ => events = why.toList.map .pause) t result t' := by
  cases why with
  | none => exact comes_pure gives rfl
  | some reason =>
      cases result with
      | ok done => exact Or.inl ⟨(), _, rfl, .pause gives (.nothing _), rfl⟩
      | error failure => exact Or.inr ⟨failure, [], rfl, (Breaks.pause gives).stops, List.nil_prefix⟩

theorem report_comes {done total : Nat} {result : Except Failure Unit}
    (gives : Gives (w.report done total) t result t') :
    Comes w [] (fun events _ => events = [.report done total]) t result t' := by
  cases result with
  | ok done => exact Or.inl ⟨(), _, rfl, .report gives (.nothing _), rfl⟩
  | error failure => exact Or.inr ⟨failure, [], rfl, (Breaks.report gives).stops, List.nil_prefix⟩

theorem takeBatch_comes {result : Except Failure (List SummaryResult)}
    (gives : Gives (takeBatch w batch) t result t') :
    Comes w batch (fun events results => ∃ attempts : List Attempt,
      attempts.map (·.request) = batch ∧ results = attempts.map (·.result) ∧
        events = batchEvents attempts) t result t' := by
  induction batch generalizing t t' result with
  | nil => exact comes_pure gives ⟨[], rfl, rfl, rfl⟩
  | cons request rest ih =>
      refine comes_bind gives attempt_comes (List.prefix_append [request] rest) ?_
      rintro a _ middle _ _ ⟨rfl, rfl⟩ next
      refine ⟨rest, List.prefix_rfl, comes_bind next pauseFor_comes List.nil_prefix ?_⟩
      rintro _ _ _ _ _ rfl next
      refine ⟨rest, by simp, comes_bind next ih List.prefix_rfl ?_⟩
      rintro _ _ _ _ _ ⟨attempts, rfl, rfl, rfl⟩ made
      refine ⟨[], by simp [callsOf_batchEvents], comes_pure made ⟨a :: attempts, rfl, rfl, ?_⟩⟩
      simp [batchEvents]

theorem takeBatches_comes {total : Nat} {before : List SummaryResult} {all : List (List SummaryRequest)}
    {result : Except Failure (List SummaryResult)}
    (gives : Gives (takeBatches w total before all) t result t') :
    Comes w all.flatten (fun events results => ∃ groups : List (List Attempt),
      groups.map (·.map (·.request)) = all ∧
        results = before ++ groups.flatten.map (·.result) ∧
        events = runEvents total before.length groups) t result t' := by
  induction all generalizing t t' before result with
  | nil => exact comes_pure gives ⟨[], rfl, by simp, rfl⟩
  | cons batch rest ih =>
      refine comes_bind gives takeBatch_comes (List.prefix_append batch rest.flatten) ?_
      rintro _ _ _ _ _ ⟨attempts, rfl, rfl, rfl⟩ next
      refine ⟨rest.flatten, by simp [callsOf_batchEvents],
        comes_bind next report_comes List.nil_prefix ?_⟩
      rintro _ _ _ _ _ rfl next
      refine ⟨rest.flatten, by simp, comes_bind next pauseFor_comes List.nil_prefix ?_⟩
      rintro _ _ _ _ _ rfl next
      refine ⟨rest.flatten, by simp, (ih next).imp ?_⟩
      rintro _ _ ⟨groups, rfl, rfl, rfl⟩
      exact ⟨attempts :: groups, rfl, by simp, by simp [runEvents]⟩

theorem inBatches_comes {settings : SummarySettings} {result : Except Failure (List SummaryResult)}
    (gives : Gives (inBatches w settings requests) t result t') :
    Comes w requests (fun events results => ∃ groups : List (List Attempt),
      groups.map (·.map (·.request)) = batches (batchSize settings) requests ∧
        results = groups.flatten.map (·.result) ∧
        events = runEvents requests.length 0 groups) t result t' := by
  have comes := takeBatches_comes gives
  rw [batches_flatten] at comes
  exact comes

end Batches

section Places

variable {R : Nat → Attempt → Prop} {turns : List Nat} {attempts : List Attempt}

theorem lookup_beside (beside : List.Forall₂ R turns attempts) {place : Nat} (member : place ∈ turns) :
    ∃ a, (turns.zip attempts).lookup place = some a ∧ R place a := by
  induction beside with
  | nil => simp at member
  | @cons turn a turns attempts related _ ih =>
      by_cases own : place = turn
      · subst own
        exact ⟨a, by simp, related⟩
      · obtain ⟨other, found, related⟩ := ih ((List.mem_cons.mp member).resolve_left own)
        refine ⟨other, ?_, related⟩
        rw [List.zip_cons_cons, List.lookup_cons, beq_false_of_ne own]
        exact found

theorem filterMap_lookup (beside : List.Forall₂ R turns attempts) (once : turns.Nodup) :
    turns.filterMap (fun place => (turns.zip attempts).lookup place) = attempts := by
  induction beside with
  | nil => rfl
  | @cons turn a turns attempts _ _ ih =>
      obtain ⟨fresh, once⟩ := List.nodup_cons.mp once
      have own : ((turn :: turns).zip (a :: attempts)).lookup turn = some a := by simp
      have others : turns.filterMap (fun place => ((turn :: turns).zip (a :: attempts)).lookup place) =
          turns.filterMap fun place => (turns.zip attempts).lookup place := by
        refine List.filterMap_congr fun place member => ?_
        have differ : place ≠ turn := fun same => fresh (same ▸ member)
        rw [List.zip_cons_cons, List.lookup_cons, beq_false_of_ne differ]
      rw [List.filterMap_cons, own, others, ih once]

theorem lookup_zip_map (turns : List Nat) (attempts : List Attempt) (place : Nat) :
    (turns.zip (attempts.map (·.result))).lookup place =
      ((turns.zip attempts).lookup place).map (·.result) := by
  induction turns generalizing attempts with
  | nil => rfl
  | cons turn turns ih =>
      cases attempts with
      | nil => rfl
      | cons a attempts =>
          by_cases own : place = turn
          · subst own
            simp
          · simp [List.lookup_cons, beq_false_of_ne own, ih]

variable {requests : List SummaryRequest}

theorem beside_of_taken (within : ∀ place ∈ turns, place < requests.length)
    (taken : attempts.map (·.request) = turns.filterMap (requests[·]?)) :
    List.Forall₂ (fun place a => requests[place]? = some a.request) turns attempts := by
  induction turns generalizing attempts with
  | nil =>
      obtain rfl : attempts = [] := by simpa using taken
      exact .nil
  | cons turn turns ih =>
      have there := List.getElem?_eq_getElem (within turn (by simp))
      rw [List.filterMap_cons, there] at taken
      obtain ⟨a, rest, rfl, own, others⟩ := List.map_eq_cons_iff.mp taken
      refine .cons (own ▸ there) (ih (fun place member => within place ?_) others)
      exact List.mem_cons_of_mem _ member

theorem filterMap_range (requests : List SummaryRequest) :
    (List.range requests.length).filterMap (requests[·]?) = requests := by
  induction requests with
  | nil => rfl
  | cons request rest ih =>
      rw [List.length_cons, List.range_succ_eq_map, List.filterMap_cons, List.filterMap_map]
      exact congrArg (request :: ·) ih

theorem requests_placed (within : ∀ place < requests.length, place ∈ turns)
    (beside : List.Forall₂ (fun place a => requests[place]? = some a.request) turns attempts) :
    ((List.range requests.length).filterMap (fun place => (turns.zip attempts).lookup place)).map
      (·.request) = requests := by
  rw [List.map_filterMap]
  refine Eq.trans (List.filterMap_congr fun place member => ?_) (filterMap_range requests)
  obtain ⟨a, found, there⟩ := lookup_beside beside (within place (List.mem_range.mp member))
  rw [found, there, Option.map_some]

end Places

section Turns

variable {m : Type → Type} {w : World m} {requests : List SummaryRequest}

def World.Fair (w : World m) (requests : List SummaryRequest) : Prop :=
  (w.turns requests.length).Perm (List.range requests.length)

def World.queue (w : World m) (requests : List SummaryRequest) : List SummaryRequest :=
  (w.turns requests.length).filterMap (requests[·]?)

theorem World.Fair.queue_perm (fair : w.Fair requests) : (w.queue requests).Perm requests :=
  (fair.filterMap _).trans (.of_eq (filterMap_range requests))

end Turns

section Pool

variable [LawfulMonad m] {requests : List SummaryRequest}

theorem attempts_comes {result : Except Failure (List Attempt)}
    (gives : Gives (requests.mapM (attempt w)) t result t') :
    Comes w requests (fun events attempts => attempts.map (·.request) = requests ∧
      events = attempts.map .call) t result t' := by
  induction requests generalizing t t' result with
  | nil =>
      rw [List.mapM_nil] at gives
      exact comes_pure gives ⟨rfl, rfl⟩
  | cons request rest ih =>
      rw [List.mapM_cons] at gives
      refine comes_bind gives attempt_comes (List.prefix_append [request] rest) ?_
      rintro a _ _ _ _ ⟨rfl, rfl⟩ next
      refine ⟨rest, List.prefix_rfl, comes_bind next ih List.prefix_rfl ?_⟩
      rintro others _ _ _ _ ⟨rfl, rfl⟩ made
      exact ⟨[], by simp, comes_pure made ⟨rfl, by simp⟩⟩

theorem pool_comes (fair : w.Fair requests) {result : Except Failure (List SummaryResult)}
    (gives : Gives (pool w requests) t result t') :
    Comes w (w.queue requests) (fun events results => ∃ attempts called : List Attempt,
      attempts.map (·.request) = requests ∧ results = attempts.map (·.result) ∧
        called.Perm attempts ∧ events = onceEvents called) t result t' := by
  refine comes_bind gives attempts_comes List.prefix_rfl ?_
  rintro called _ _ _ _ ⟨taken, rfl⟩ next
  have placed (place : Nat) : place ∈ w.turns requests.length ↔ place < requests.length :=
    fair.mem_iff.trans List.mem_range
  have beside := beside_of_taken (fun place => (placed place).mp) taken
  have once : (w.turns requests.length).Nodup := fair.nodup_iff.mpr List.nodup_range
  have asked := requests_placed (fun place => (placed place).mpr) beside
  have results := List.filterMap_congr fun place (_ : place ∈ List.range requests.length) =>
    lookup_zip_map (w.turns requests.length) called place
  rw [← List.map_filterMap] at results
  have perm := (List.Perm.of_eq (filterMap_lookup beside once).symm).trans (fair.filterMap _)
  refine ⟨[], ?_, comes_bind next report_comes List.nil_prefix ?_⟩
  · rw [List.append_nil, callsOf_calls, taken]
    exact List.prefix_rfl
  rintro _ _ _ _ _ rfl made
  refine ⟨[], by simp, comes_pure made ⟨_, called, asked, results, perm, ?_⟩⟩
  rw [results, List.length_map, ← perm.length_eq, List.append_nil, onceEvents, ← asked,
    List.length_map, ← perm.length_eq]

end Pool

section Whole

variable {settings : SummarySettings} {requests : List SummaryRequest} {run : m (List SummaryResult)}

section Settings

variable {unfit names : List String}

theorem needed_of_fit (fit : ∀ name ∈ names, name ∉ unfit) : needed unfit names = .ok () := by
  have none : names.any unfit.contains = false := by simpa using fit
  rw [needed, none]
  rfl

theorem needed_of_unfit (odd : ¬ ∀ name ∈ names, name ∉ unfit) :
    needed unfit names = .error .wrongKind := by
  have some : names.any unfit.contains = true := by simpa using odd
  rw [needed, some]
  rfl

end Settings

/-- The settings that say how many calls go into a batch. -/
def batchNames : List String := ["max_tokens_per_minute", "estimated_tokens_per_request", "concurrency"]

def Sized (settings : SummarySettings) : Prop :=
  (∀ name ∈ batchNames, name ∉ settings.unfit) ∧ hasWholeSize settings = true

theorem batched_of_sized (sized : Sized settings) (w : World m) (requests : List SummaryRequest) :
    batched w settings requests = .ok (inBatches w settings requests) := by
  have fit := needed_of_fit sized.1
  rw [batchNames] at fit
  rw [batched, fit, sized.2]
  rfl

theorem atOnce_of_ne_nil (some : requests ≠ []) (w : World m) :
    atOnce w requests = .ok (pool w requests) :=
  if_neg (by simpa using some)

theorem generate_of_ne_nil (some : requests ≠ []) (sized : Sized settings)
    (usable : "parallel_max_files" ∉ settings.unfit) (w : World m) : generate w settings requests =
      if fitsAtOnce settings requests.length then atOnce w requests else batched w settings requests := by
  have among : ∀ name ∈ ["estimated_tokens_per_request", "max_tokens_per_minute"],
      name ∈ batchNames := by decide
  have budget := needed_of_fit fun name member => sized.1 name (among name member)
  have few : needed settings.unfit ["parallel_max_files"] = .ok () := needed_of_fit (by simpa using usable)
  rw [generate, if_neg (by simpa using some), budget, few]
  cases fitsBudget settings requests.length <;> rfl

theorem exists_generate (sized : Sized settings) (usable : "parallel_max_files" ∉ settings.unfit)
    (w : World m) (requests : List SummaryRequest) : ∃ run, generate w settings requests = .ok run := by
  by_cases none : requests = []
  · exact ⟨_, if_pos (by simpa using none)⟩
  · rw [generate_of_ne_nil none sized usable]
    split
    · exact ⟨_, atOnce_of_ne_nil none w⟩
    · exact ⟨_, batched_of_sized sized w requests⟩

theorem atOnce_eq_ok (made : atOnce w requests = .ok run) : run = pool w requests := by
  unfold atOnce at made
  split at made
  · cases made
  · exact (Except.ok.inj made).symm

theorem batched_eq_ok (made : batched w settings requests = .ok run) :
    run = inBatches w settings requests := by
  obtain ⟨_, _, made⟩ := bind_eq_ok_iff.mp made
  split at made
  · exact (Except.ok.inj made).symm
  · cases made

theorem generate_eq_ok (made : generate w settings requests = .ok run) :
    requests = [] ∧ run = pure [] ∨
      fitsAtOnce settings requests.length = true ∧ run = pool w requests ∨
      fitsAtOnce settings requests.length = false ∧ run = inBatches w settings requests := by
  unfold generate at made
  split at made
  · rename_i none
    exact Or.inl ⟨List.isEmpty_iff.mp none, (Except.ok.inj made).symm⟩
  · rename_i some
    obtain ⟨_, _, made⟩ := bind_eq_ok_iff.mp made
    have chosen : (if fitsAtOnce settings requests.length = true then atOnce w requests
        else batched w settings requests) = .ok run := by
      dsimp only at made
      split at made
      · exact (bind_eq_ok_iff.mp made).choose_spec.2
      · exact made
    right
    split at chosen
    · rename_i fits
      exact Or.inl ⟨fits, atOnce_eq_ok chosen⟩
    · rename_i many
      exact Or.inr ⟨(Bool.not_eq_true _).mp many, batched_eq_ok chosen⟩

/-- A run whose result is there has sent each request once, and one that fails has sent none twice. -/
theorem generate_comes [LawfulMonad m] (fair : w.Fair requests) (made : generate w settings requests = .ok run)
    {result : Except Failure (List SummaryResult)} (gives : Gives run t result t') :
    ∃ queue : List SummaryRequest, queue.Perm requests ∧
      Comes w queue (fun events results => ∃ attempts : List Attempt,
        attempts.map (·.request) = requests ∧ results = attempts.map (·.result) ∧
          (callsOf events).Perm attempts) t result t' := by
  rcases generate_eq_ok made with ⟨rfl, rfl⟩ | ⟨_, rfl⟩ | ⟨_, rfl⟩
  · exact ⟨[], .nil, comes_pure gives ⟨[], rfl, rfl, .nil⟩⟩
  · refine ⟨_, fair.queue_perm, (pool_comes fair gives).imp ?_⟩
    rintro _ _ ⟨attempts, called, asked, same, perm, rfl⟩
    refine ⟨attempts, asked, same, ?_⟩
    rwa [callsOf_onceEvents]
  · refine ⟨_, .refl _, (inBatches_comes gives).imp ?_⟩
    rintro _ _ ⟨groups, grouped, same, rfl⟩
    refine ⟨groups.flatten, ?_, same, .of_eq (callsOf_runEvents _ _ _)⟩
    rw [List.map_flatten, grouped, batches_flatten]

end Whole

end Groundwork.Summary
