import Groundwork.Proofs.Batch
import Groundwork.Proofs.Index.PartialWrites
import Groundwork.Proofs.Index.Rows

/-!
What a run that writes an index does, from the first step to the last: it asks for the vectors once and then
puts the rows in, batch by batch, with a pause between two batches.
-/

namespace Groundwork.Index

variable {σ : Type}

inductive Act where
  | embed (texts : List String) (answer : Except Failure (List Vector64))
  | upsert (nspace : String) (batch : List TextRecord) (answer : Except Failure Unit)
  | pause

def recordedWrite (embedMany : List String → StateM σ (Except Failure (List Vector64)))
    (upsert : String → List TextRecord → StateM σ (Except Failure Unit)) (pause : StateM σ Unit)
    (batchSize : Int) (perRecord : Bool) (a : Analysis) :
    StateT (List Act) (StateM σ) (Except Failure String) :=
  write (fun texts => recording (.embed texts) (embedMany texts))
    (fun nspace batch => recording (.upsert nspace batch) (upsert nspace batch))
    (recording (fun _ => .pause) pause) batchSize perRecord a

def Step.act (nspace : String) : Step → Act
  | upsert batch => .upsert nspace batch (.ok ())
  | pause => .pause

theorem steps_acts (nspace : String) (groups : List (List TextRecord)) :
    (steps groups).map (Step.act nspace) =
      (groups.map fun batch => .upsert nspace batch (.ok ())).intersperse .pause := by
  induction groups using steps.induct with
  | case1 => rfl
  | case2 batch => rfl
  | case3 batch rest several ih =>
      obtain ⟨next, others, rfl⟩ := List.exists_cons_of_ne_nil several
      rw [steps.eq_3 batch _ several, List.map_cons, List.map_cons, ih]
      rfl

section Steps

variable {upsert : List TextRecord → StateM σ (Except Failure Unit)} {pause : StateM σ Unit}
  {nspace : String} {all : List Step} {acts acts' : List Act} {result : Except Failure Unit}

theorem takeSteps_acts
    (ran : Ran (takeSteps (fun batch => recording (.upsert nspace batch) (upsert batch))
      (recording (fun _ => .pause) pause) all) acts (.ok ()) acts') :
    acts' = acts ++ all.map (Step.act nspace) := by
  induction all generalizing acts with
  | nil => simpa using ran.of_pure.2
  | cons step rest ih =>
      cases step with
      | pause =>
          obtain ⟨_, middle, paused, next⟩ := ran.of_bind
          rw [ih next, (recording_ran paused).1, List.append_assoc]
          rfl
      | upsert batch =>
          obtain ⟨answer, middle, put, next⟩ := ran.of_bind
          cases answer with
          | error failure => cases next.of_pure.1
          | ok done =>
              rw [ih next, (recording_ran put).1, List.append_assoc]
              rfl

theorem takeSteps_ok (stored : ∀ batch world, ((upsert batch).run world).1 = .ok ())
    (ran : Ran (takeSteps (fun batch => recording (.upsert nspace batch) (upsert batch))
      (recording (fun _ => .pause) pause) all) acts result acts') : result = .ok () := by
  induction all generalizing acts with
  | nil => exact ran.of_pure.1
  | cons step rest ih =>
      cases step with
      | pause =>
          obtain ⟨_, middle, _, next⟩ := ran.of_bind
          exact ih next
      | upsert batch =>
          obtain ⟨answer, middle, put, next⟩ := ran.of_bind
          obtain ⟨_, world, rfl⟩ := recording_ran put
          rw [stored batch world] at next
          exact ih next

end Steps

structure Batched (batchSize : Int) (perRecord : Bool) (a : Analysis) (vectors : List Vector64)
    (groups : List (List TextRecord)) : Prop where
  entries : (groups.flatten.map fun row => (row.id, row.metadata)) =
    (entries a).map fun e => (e.id, e.metadata)
  own : perRecord = true → groups.flatten.map (·.vector) = vectors
  shared : perRecord = false →
    ∃ vector, vectors = [vector] ∧ ∀ row ∈ groups.flatten, row.vector = vector
  nonempty : ∀ batch ∈ groups, batch ≠ []
  fit : ∀ batch ∈ groups, (batch.length : Int) ≤ max 1 batchSize
  full : ∀ batch ∈ groups.dropLast, (batch.length : Int) = max 1 batchSize

section Records

variable {perRecord : Bool} {a : Analysis} {vectors : List Vector64} {rows : List TextRecord}

theorem rowsOf_entries {all : List Entry} (enough : all.length ≤ vectors.length) :
    ((rowsOf all vectors).map fun row => (row.id, row.metadata)) =
      all.map fun e => (e.id, e.metadata) := by
  rw [rowsOf, List.map_map]
  conv_rhs => rw [← List.map_fst_zip enough, List.map_map]
  rfl

theorem rowsOf_vectors {all : List Entry} (few : vectors.length ≤ all.length) :
    (rowsOf all vectors).map (·.vector) = vectors := by
  rw [rowsOf, List.map_map]
  exact List.map_snd_zip few

theorem batched_of_records (made : records perRecord a vectors = .ok rows)
    (beside : vectors.length = (textsFor perRecord a).length) (batchSize : Int) :
    Batched batchSize perRecord a vectors (batches (max 1 batchSize).toNat rows) := by
  have some : 0 < (max 1 batchSize).toNat := by omega
  have packed := batches_packed some rows
  have nonempty : ∀ batch ∈ batches (max 1 batchSize).toNat rows, batch ≠ [] :=
    fun batch member => nonempty_of_mem_batches member
  have fit : ∀ batch ∈ batches (max 1 batchSize).toNat rows, (batch.length : Int) ≤ max 1 batchSize := by
    intro batch member
    have := packed.length_le member
    omega
  have full : ∀ batch ∈ (batches (max 1 batchSize).toNat rows).dropLast,
      (batch.length : Int) = max 1 batchSize := by
    intro batch member
    have := packed.length_of_dropLast member
    omega
  cases perRecord with
  | true =>
      obtain rfl := Except.ok.inj made
      rw [textsFor, if_pos rfl, List.length_map] at beside
      refine ⟨?_, fun _ => ?_, by simp, nonempty, fit, full⟩
      · rw [batches_flatten, rowsOf_entries (Nat.le_of_eq beside.symm)]
      · rw [batches_flatten, rowsOf_vectors (Nat.le_of_eq beside)]
  | false =>
      obtain ⟨shared, rfl⟩ := List.length_eq_one_iff.mp beside
      obtain rfl := Except.ok.inj made
      refine ⟨?_, by simp, fun _ => ⟨shared, rfl, ?_⟩, nonempty, fit, full⟩
      · rw [batches_flatten, rowsOf_entries (by simp)]
      · intro row member
        rw [batches_flatten] at member
        have own := List.mem_map_of_mem (f := (·.vector)) member
        rw [rowsOf_vectors (by simp)] at own
        exact List.eq_of_mem_replicate own

theorem exists_records (beside : vectors.length = (textsFor perRecord a).length) :
    ∃ rows, records perRecord a vectors = .ok rows := by
  cases perRecord with
  | true => exact ⟨_, rfl⟩
  | false =>
      obtain ⟨shared, rfl⟩ := List.length_eq_one_iff.mp beside
      exact ⟨_, rfl⟩

end Records

/-- If the embedder answers with one vector for each text, a run that ends well has asked it once and has put
in all entries in order, in full batches but for the last one, with one pause between any two of them. A run ends
well if the embedder answers and nothing that is put in fails. -/
theorem write_batched {embedMany : List String → StateM σ (Except Failure (List Vector64))}
    (beside : ∀ texts world vectors, ((embedMany texts).run world).1 = .ok vectors →
      vectors.length = texts.length)
    (upsert : String → List TextRecord → StateM σ (Except Failure Unit)) (pause : StateM σ Unit)
    (batchSize : Int) (perRecord : Bool) (a : Analysis) (world : σ) :
    (∀ nspace acts,
      (((recordedWrite embedMany upsert pause batchSize perRecord a).run []).run world).1 =
          (.ok nspace, acts) →
      nspace = namespaceOf a.repoUrl a.branch ∧
      ∃ vectors groups, Batched batchSize perRecord a vectors groups ∧
        acts = .embed (textsFor perRecord a) (.ok vectors) ::
          (groups.map fun batch => .upsert nspace batch (.ok ())).intersperse .pause) ∧
    ((∀ texts world, ∃ vectors, ((embedMany texts).run world).1 = .ok vectors) →
      (∀ nspace batch world, ((upsert nspace batch).run world).1 = .ok ()) →
      (((recordedWrite embedMany upsert pause batchSize perRecord a).run []).run world).1.1 =
        .ok (namespaceOf a.repoUrl a.branch)) := by
  constructor
  · intro nspace acts same
    have ran : Ran (recordedWrite embedMany upsert pause batchSize perRecord a) [] (.ok nspace) acts :=
      ⟨world, _, Prod.ext same rfl⟩
    obtain ⟨answer, middle, asked, ⟨_, _, failed, _⟩ | ⟨rows, written, made, taken, ended⟩⟩ :=
      write_steps ran
    · cases failed
    · obtain ⟨noted, start, answered⟩ := recording_ran asked
      cases written with
      | error failure => cases ended
      | ok done =>
          obtain rfl := Except.ok.inj ended
          cases answer with
          | error failure => cases made
          | ok vectors =>
              refine ⟨rfl, vectors, _, batched_of_records made (beside _ _ _ answered) batchSize, ?_⟩
              rw [takeSteps_acts taken, noted, writingSteps, steps_acts]
              rfl
  · intro answers stored
    have ran : Ran (recordedWrite embedMany upsert pause batchSize perRecord a) [] _ _ :=
      ⟨world, _, rfl⟩
    obtain ⟨answer, middle, asked, outcome⟩ := write_steps ran
    obtain ⟨_, start, answered⟩ := recording_ran asked
    obtain ⟨vectors, found⟩ := answers (textsFor perRecord a) start
    obtain rfl : answer = .ok vectors := answered.symm.trans found
    obtain ⟨rows, made⟩ := exists_records (beside _ _ _ answered)
    rcases outcome with ⟨failure, failed, _⟩ | ⟨_, written, _, taken, ended⟩
    · cases made.symm.trans failed
    · rw [takeSteps_ok (stored _) taken] at ended
      exact ended

def plainEmbed (texts : List String) : StateM Unit (Except Failure (List Vector64)) :=
  return .ok (texts.map fun _ => [1.0])

theorem write_batched_small : ∃ vectors first last,
    (((recordedWrite plainEmbed (fun _ _ => return .ok ()) (return ()) 2 true
      smallAnalysis).run []).run ()).1 = (.ok "owner-repo-main",
        [.embed (textsFor true smallAnalysis) (.ok vectors), .upsert "owner-repo-main" first (.ok ()),
          .pause, .upsert "owner-repo-main" last (.ok ())]) ∧
      vectors.length = 3 ∧ first.length = 2 ∧ last.length = 1 := by
  have beside : ∀ texts world vectors, ((plainEmbed texts).run world).1 = .ok vectors →
      vectors.length = texts.length := by
    intro texts world vectors answered
    obtain rfl := Except.ok.inj answered
    exact List.length_map _
  obtain ⟨ends, succeeds⟩ :=
    write_batched beside (fun _ _ => return .ok ()) (return ()) 2 true smallAnalysis ()
  have nspace : namespaceOf smallAnalysis.repoUrl smallAnalysis.branch = "owner-repo-main" := by decide
  have ended := succeeds (fun _ _ => ⟨_, rfl⟩) fun _ _ _ => rfl
  rw [nspace] at ended
  obtain ⟨_, vectors, groups, batched, acts⟩ := ends _ _ (Prod.ext ended rfl)
  have three : (entries smallAnalysis).length = 3 := by decide +kernel
  have total : groups.flatten.length = 3 := by
    rw [← List.length_map, batched.entries, List.length_map, three]
  have own : vectors.length = 3 := by
    rw [← batched.own rfl, List.length_map, total]
  match groups, batched, acts, total with
  | [], _, _, total => simp at total
  | [only], batched, _, total =>
      have := batched.fit only (by simp)
      simp only [List.flatten_singleton] at total
      omega
  | [first, last], batched, acts, total =>
      have filled := batched.full first (by simp)
      simp only [List.flatten_cons, List.flatten_nil, List.append_nil, List.length_append] at total
      exact ⟨vectors, first, last, Prod.ext ended acts, own, by omega, by omega⟩
  | first :: second :: third :: rest, batched, _, total =>
      have filled := batched.full first (by simp)
      have again := batched.full second (by simp)
      simp only [List.flatten_cons, List.length_append] at total
      omega

end Groundwork.Index
