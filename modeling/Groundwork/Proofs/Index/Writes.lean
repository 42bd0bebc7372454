import Groundwork.Index.Writing
import Groundwork.Proofs.Ran

/-!
What writing an index does to the state: the batches are put into one namespace in order, up to the
first one that fails.
-/

namespace Groundwork.Index

variable {σ τ : Type}

/-- The batches have been put in one after the other until one failed, or until the work stopped before
one of them. -/
inductive Writes (stops : Failure → Prop)
    (upsert : List TextRecord → StateT τ (StateM σ) (Except Failure Unit)) :
    List (List TextRecord) → τ → Except Failure Unit → τ → Prop
  | done (t : τ) : Writes stops upsert [] t (.ok ()) t
  | stopped {all : List (List TextRecord)} {t : τ} {failure : Failure} : stops failure →
      Writes stops upsert all t (.error failure) t
  | failed {batch : List TextRecord} {rest : List (List TextRecord)} {t t' : τ} {failure : Failure} :
      Ran (upsert batch) t (.error failure) t' →
      Writes stops upsert (batch :: rest) t (.error failure) t'
  | written {batch : List TextRecord} {rest : List (List TextRecord)} {t middle t' : τ}
      {result : Except Failure Unit} :
      Ran (upsert batch) t (.ok ()) middle → Writes stops upsert rest middle result t' →
      Writes stops upsert (batch :: rest) t result t'

def never (_ : Failure) : Prop := False

open Traced (Gives)

section Steps

variable {m : Type → Type} [Monad m] [Traced m τ] {stops : Failure → Prop}
  {upsert : List TextRecord → StateT τ (StateM σ) (Except Failure Unit)}
  {put : List TextRecord → m (Except Failure Unit)} {pause : m Unit} {t t' : τ}
  {all : List (List TextRecord)}

theorem Writes.quiet {result : Except Failure Unit} (writes : Writes stops upsert all t result t')
    (quiet : ∀ batch, Quiet (upsert batch)) : t' = t := by
  induction writes with
  | done t => rfl
  | stopped _ => rfl
  | failed ran => exact quiet _ _ _ _ ran
  | written ran _ ih => exact ih.trans (quiet _ _ _ _ ran)

/-- The work puts in batches as `upsert` does, and pauses change nothing and stop it for some reasons. -/
structure Works (stops : Failure → Prop)
    (upsert : List TextRecord → StateT τ (StateM σ) (Except Failure Unit))
    (put : List TextRecord → m (Except Failure Unit)) (pause : m Unit) : Prop where
  put : ∀ {batch t result t'}, Gives (put batch) t result t' →
    ∃ answer, result = .ok answer ∧ Ran (upsert batch) t answer t'
  pause : ∀ {t result t'}, Gives pause t result t' →
    t' = t ∧ ∀ failure, result = .error failure → stops failure

theorem takeSteps_upsert (works : Works stops upsert put pause) {batch : List TextRecord}
    {rest : List Step} {later : List (List TextRecord)}
    {result : Except Failure (Except Failure Unit)}
    (gives : Gives (takeSteps put pause (.upsert batch :: rest)) t result t')
    (onward : ∀ {middle}, Gives (takeSteps put pause rest) middle result t' →
      Writes stops upsert later middle (result.bind id) t') :
    Writes stops upsert (batch :: later) t (result.bind id) t' := by
  rcases Traced.of_bind gives with ⟨failure, asked, rfl⟩ | ⟨answer, middle, asked, next⟩
  · obtain ⟨_, same, _⟩ := works.put asked
    cases same
  · obtain ⟨_, same, ran⟩ := works.put asked
    cases same
    cases answer with
    | error failure =>
        obtain ⟨rfl, rfl⟩ := Traced.of_pure next
        exact .failed ran
    | ok done => exact .written ran (onward next)

theorem takeSteps_writes (works : Works stops upsert put pause)
    {result : Except Failure (Except Failure Unit)}
    (gives : Gives (takeSteps put pause (steps all)) t result t') :
    Writes stops upsert all t (result.bind id) t' := by
  induction all using steps.induct generalizing t with
  | case1 =>
      obtain ⟨rfl, rfl⟩ := Traced.of_pure gives
      exact .done t'
  | case2 batch =>
      refine takeSteps_upsert works gives ?_
      intro middle next
      obtain ⟨rfl, rfl⟩ := Traced.of_pure next
      exact .done t'
  | case3 batch rest several ih =>
      rw [steps.eq_3 batch rest several] at gives
      refine takeSteps_upsert works gives ?_
      intro middle next
      rcases Traced.of_bind next with ⟨failure, paused, rfl⟩ | ⟨_, after, paused, last⟩
      · obtain ⟨rfl, stop⟩ := works.pause paused
        exact .stopped (stop failure rfl)
      · obtain ⟨rfl, _⟩ := works.pause paused
        exact ih last

theorem write_gives {embedMany : List String → m (Except Failure (List Vector64))}
    {put : String → List TextRecord → m (Except Failure Unit)} {batchSize : Int} {perRecord : Bool}
    {a : Analysis} {result : Except Failure (Except Failure String)}
    (gives : Gives (write embedMany put pause batchSize perRecord a) t result t') :
    (∃ failure, Gives (embedMany (textsFor perRecord a)) t (.error failure) t' ∧
        result = .error failure) ∨
      ∃ answer middle, Gives (embedMany (textsFor perRecord a)) t (.ok answer) middle ∧
        ((∃ failure, answer.bind (records perRecord a) = .error failure ∧
            result = .ok (.error failure) ∧ t' = middle) ∨
          ∃ rows written, answer.bind (records perRecord a) = .ok rows ∧
            Gives (takeSteps (put (namespaceOf a.repoUrl a.branch)) pause (writingSteps batchSize rows))
              middle written t' ∧
            result = written.map (·.map fun _ => namespaceOf a.repoUrl a.branch)) := by
  rcases Traced.of_bind gives with ⟨failure, embedding, rfl⟩ | ⟨embedded, middle, embedding, next⟩
  · rcases Traced.of_bind embedding with ⟨_, asked, ⟨⟩⟩ | ⟨answer, middle, asked, made⟩
    · exact Or.inl ⟨failure, asked, rfl⟩
    · cases (Traced.of_pure made).1
  · right
    rcases Traced.of_bind embedding with ⟨_, _, same⟩ | ⟨answer, later, asked, made⟩
    · cases same
    obtain ⟨same, rfl⟩ := Traced.of_pure made
    cases same
    refine ⟨answer, middle, asked, ?_⟩
    cases rows : answer.bind (records perRecord a) with
    | error failure =>
        rw [rows] at next
        obtain ⟨rfl, rfl⟩ := Traced.of_pure next
        exact Or.inl ⟨failure, rfl, rfl, rfl⟩
    | ok all =>
        rw [rows] at next
        rcases Traced.of_bind next with ⟨failure, taken, rfl⟩ | ⟨written, last, taken, made⟩
        · exact Or.inr ⟨all, _, rfl, taken, rfl⟩
        · obtain ⟨rfl, rfl⟩ := Traced.of_pure made
          exact Or.inr ⟨all, _, rfl, taken, rfl⟩

end Steps

section Whole

variable {upsert : List TextRecord → StateT τ (StateM σ) (Except Failure Unit)}
  {pause : StateT τ (StateM σ) Unit}

theorem works_of_quiet (quiet : Quiet pause) : Works never upsert upsert pause where
  put := by
    rintro batch t _ t' ⟨answer, rfl, ran⟩
    exact ⟨answer, rfl, ran⟩
  pause := by
    rintro t _ t' ⟨_, rfl, ran⟩
    exact ⟨quiet _ _ _ ran, by simp⟩

theorem write_steps {embedMany : List String → StateT τ (StateM σ) (Except Failure (List Vector64))}
    {upsert : String → List TextRecord → StateT τ (StateM σ) (Except Failure Unit)} {batchSize : Int}
    {perRecord : Bool} {a : Analysis} {t t' : τ} {result : Except Failure String}
    (ran : Ran (write embedMany upsert pause batchSize perRecord a) t result t') :
    ∃ answer middle, Ran (embedMany (textsFor perRecord a)) t answer middle ∧
      ((∃ failure, answer.bind (records perRecord a) = .error failure ∧
          result = .error failure ∧ t' = middle) ∨
        ∃ rows written, answer.bind (records perRecord a) = .ok rows ∧
          Ran (takeSteps (upsert (namespaceOf a.repoUrl a.branch)) pause (writingSteps batchSize rows))
            middle written t' ∧
          result = written.map fun _ => namespaceOf a.repoUrl a.branch) := by
  rcases write_gives (show Gives (write embedMany upsert pause batchSize perRecord a) t (.ok result) t' from
    ⟨result, rfl, ran⟩) with
    ⟨_, ⟨_, same, _⟩, _⟩ | ⟨answer, middle, ⟨_, same, asked⟩, outcome⟩
  · cases same
  · cases same
    refine ⟨answer, middle, asked, ?_⟩
    rcases outcome with ⟨failure, made, same, rfl⟩ | ⟨rows, _, made, ⟨written, rfl, taken⟩, same⟩
    · exact Or.inl ⟨failure, made, Except.ok.inj same, rfl⟩
    · exact Or.inr ⟨rows, written, made, taken, Except.ok.inj same⟩

theorem write_ran {embedMany : List String → StateT τ (StateM σ) (Except Failure (List Vector64))}
    {upsert : String → List TextRecord → StateT τ (StateM σ) (Except Failure Unit)}
    (quietEmbed : ∀ texts, Quiet (embedMany texts)) (quietPause : Quiet pause) {batchSize : Int}
    {perRecord : Bool} {a : Analysis} {t t' : τ} {result : Except Failure String}
    (ran : Ran (write embedMany upsert pause batchSize perRecord a) t result t') :
    (∃ failure, result = .error failure ∧ t' = t) ∨
      ∃ vectors rows written, Ran (embedMany (textsFor perRecord a)) t (.ok vectors) t ∧
        records perRecord a vectors = .ok rows ∧
        Writes never (upsert (namespaceOf a.repoUrl a.branch)) (batches (max 1 batchSize).toNat rows) t
          written t' ∧
        result = written.map fun _ => namespaceOf a.repoUrl a.branch := by
  obtain ⟨answer, middle, asked, outcome⟩ := write_steps ran
  obtain rfl := quietEmbed _ _ _ _ asked
  rcases outcome with ⟨failure, _, rfl, rfl⟩ | ⟨rows, written, made, taken, rfl⟩
  · exact Or.inl ⟨failure, rfl, rfl⟩
  · cases answer with
    | error failure => simp [Except.bind] at made
    | ok vectors =>
        have writes := takeSteps_writes (works_of_quiet quietPause) ⟨written, rfl, taken⟩
        exact Or.inr ⟨vectors, rows, written, asked, made, writes, rfl⟩

end Whole

end Groundwork.Index
