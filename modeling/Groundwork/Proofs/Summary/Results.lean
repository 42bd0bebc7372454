import Groundwork.Proofs.Summary.Runs

/-!
The results of a run do not depend on how its calls are made: at once and in any order, or one after the
other in batches of any size. If what comes of a request depends on nothing but the request, both ways
send each request once and have the same results, whichever of the requests fail. No run starts at once
for no requests, or in batches that have no size, and a pause that fails ends the run.
-/

namespace Groundwork.Summary

open Traced (Gives)

variable {σ : Type}

/-- A world whose state is the list of the requests that were sent. -/
def World.noted (w : World (ExceptT Failure (StateM σ))) :
    World (ExceptT Failure (StateT (List SummaryRequest) (StateM σ))) where
  ask request := do
    ExceptT.lift (modify fun sent => sent ++ [request])
    ExceptT.mk (StateT.lift (w.ask request).run)
  pause why := ExceptT.mk (StateT.lift (w.pause why).run)
  report done total := ExceptT.mk (StateT.lift (w.report done total).run)
  turns := w.turns

/-- What comes of a request depends on nothing but the request, and reports do not fail. -/
structure World.Settled (w : World (ExceptT Failure (StateM σ))) (outcome : SummaryRequest → Outcome) :
    Prop where
  ask : ∀ request world, ((w.ask request).run.run world).1 = .ok (outcome request)
  report : ∀ done total world, ((w.report done total).run.run world).1 = .ok ()

def World.PauseFails (w : World (ExceptT Failure (StateM σ))) (failure : Failure) : Prop :=
  ∃ why world, ((w.pause why).run.run world).1 = .error failure

def resultOf (outcome : SummaryRequest → Outcome) (request : SummaryRequest) : SummaryResult :=
  Attempt.result ⟨request, outcome request⟩

def ending {α : Type} (run : ExceptT Failure (StateT (List SummaryRequest) (StateM σ)) α) (world : σ) :
    Except Failure α × List SummaryRequest :=
  ((run.run.run []).run world).1

variable {w : World (ExceptT Failure (StateM σ))} {outcome : SummaryRequest → Outcome}
  {requests : List SummaryRequest}

theorem gives_lift {α : Type} {x : StateM σ (Except Failure α)} {sent later : List SummaryRequest}
    {result : Except Failure α}
    (gives : Gives (ExceptT.mk (StateT.lift x) : ExceptT Failure (StateT _ (StateM σ)) α)
      sent result later) : later = sent ∧ ∃ world, (x.run world).1 = result := by
  obtain ⟨world, after, same⟩ := gives
  cases same
  exact ⟨rfl, world, rfl⟩

theorem noted_asked {request : SummaryRequest} {answer : Except Failure Outcome}
    {sent later : List SummaryRequest} (gives : Gives (w.noted.ask request) sent answer later) :
    later = sent ++ [request] ∧ ∃ world, ((w.ask request).run.run world).1 = answer := by
  obtain ⟨_, middle, noting, asked⟩ := Ran.of_tryLiftBind gives
  obtain ⟨rfl, found⟩ := gives_lift asked
  exact ⟨noting.of_modify, found⟩

theorem Happens.sent {events : List Event} {sent later : List SummaryRequest}
    (happens : Happens w.noted sent events later) :
    later = sent ++ (callsOf events).map (·.request) := by
  induction happens with
  | nothing => simp
  | call gives _ ih => simp [ih, (noted_asked gives).1]
  | pause gives _ ih => simp [ih, (gives_lift gives).1]
  | report gives _ ih => simp [ih, (gives_lift gives).1]

theorem Happens.outcomes {events : List Event} {sent later : List SummaryRequest}
    (happens : Happens w.noted sent events later) (settled : w.Settled outcome) :
    ∀ a ∈ callsOf events, a.outcome = outcome a.request := by
  intro a called
  obtain ⟨_, _, asked⟩ := happens.answered a called
  obtain ⟨world, same⟩ := (noted_asked asked).2
  rw [settled.ask] at same
  exact (Except.ok.inj same).symm

theorem Stops.sent {events : List Event} {failure : Failure} {later : List SummaryRequest}
    (stops : Stops w.noted [] events failure later) (settled : w.Settled outcome) :
    w.PauseFails failure ∧ later = (callsOf events).map (·.request) := by
  obtain ⟨middle, happens, breaks⟩ := stops
  have sent := happens.sent
  cases breaks with
  | call gives =>
      obtain ⟨world, failed⟩ := (noted_asked gives).2
      rw [settled.ask] at failed
      cases failed
  | @pause why _ _ _ gives =>
      obtain ⟨rfl, world, failed⟩ := gives_lift gives
      exact ⟨⟨why, world, failed⟩, by simpa using sent⟩
  | report gives =>
      obtain ⟨_, world, failed⟩ := gives_lift gives
      rw [settled.report] at failed
      cases failed

theorem results_of_attempts {attempts : List Attempt} {events : List Event} {sent : List SummaryRequest}
    (settled : w.Settled outcome) (asked : attempts.map (·.request) = requests)
    (happens : Happens w.noted [] events sent) (calls : (callsOf events).Perm attempts) :
    attempts.map (·.result) = requests.map (resultOf outcome) := by
  rw [← asked, List.map_map]
  refine List.map_congr_left fun a member => ?_
  rw [Function.comp_apply, resultOf, ← happens.outcomes settled a (calls.mem_iff.mpr member)]

theorem Comes.results {queue : List SummaryRequest} {result : Except Failure (List SummaryResult)}
    {sent : List SummaryRequest} (settled : w.Settled outcome)
    (comes : Comes w.noted queue (fun events results => ∃ attempts : List Attempt,
      attempts.map (·.request) = requests ∧ results = attempts.map (·.result) ∧
        (callsOf events).Perm attempts) [] result sent) :
    result = .ok (requests.map (resultOf outcome)) ∧ sent.Perm requests ∨
      ∃ failure, result = .error failure ∧ w.PauseFails failure ∧ sent <+: queue := by
  rcases comes with ⟨_, events, rfl, happens, attempts, asked, rfl, perm⟩ |
    ⟨failure, events, rfl, stops, few⟩
  · left
    rw [results_of_attempts settled asked happens perm, happens.sent, List.nil_append, ← asked]
    exact ⟨rfl, perm.map _⟩
  · obtain ⟨fails, rfl⟩ := stops.sent settled
    exact Or.inr ⟨failure, rfl, fails, few⟩

end Groundwork.Summary
