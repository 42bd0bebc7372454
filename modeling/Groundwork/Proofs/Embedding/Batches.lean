import Groundwork.Proofs.Embedding.Answers
import Groundwork.Proofs.Index.Rows

/-!
The vectors of many texts, asked for batch by batch. How many come back depends on the items of the
answers alone: nothing checks that there are as many as texts, so a short answer moves the vectors of
later batches onto other texts, and entries without a vector are not written.
-/

namespace Groundwork

/-- The outcomes of so many requests; without further ones the service cannot be reached. -/
def Wire.next : Nat → List HttpOutcome → List HttpOutcome
  | 0, _ => []
  | n + 1, outcome :: rest => outcome :: next n rest
  | n + 1, [] => .unreachable "exhausted" :: next n []

theorem Wire.run_send (request : HttpRequest) (wire : Wire) (n : Nat) :
    ∃ outcome later, (send request).run wire = (outcome, later) ∧
      next (n + 1) wire.pending = outcome :: next n later.pending := by
  obtain ⟨pending, sent⟩ := wire
  cases pending <;> exact ⟨_, _, rfl, rfl⟩

namespace Embedding

variable {e : Remote} {texts : List String} {wire : Wire}

def Remote.reply (e : Remote) (outcome : HttpOutcome) : Except Failure (List Vector64) :=
  if e.apiKey.isEmpty then .error (.provider (.noKey "OpenAI embeddings")) else answer outcome

def Remote.outcomes (e : Remote) (texts : List String) (wire : Wire) : List HttpOutcome :=
  Wire.next (batches e.batchSize.toNat texts).length wire.pending

theorem reply_of_key (keyed : ¬ e.apiKey.isEmpty) : e.reply = Remote.answer := by
  funext outcome
  exact if_neg keyed

theorem embedBatches_run (e : Remote) (parts : List (List String)) (wire : Wire) :
    ((e.embedBatches Wire.send parts).run wire).1 =
      ((Wire.next parts.length wire.pending).mapM e.reply).map List.flatten := by
  induction parts generalizing wire with
  | nil => rfl
  | cons batch parts ih =>
      obtain ⟨outcome, later, sent, next⟩ := Wire.run_send (e.request batch) wire parts.length
      rw [List.length_cons, next, List.mapM_cons, Remote.embedBatches, StateT.run_bind]
      by_cases noKey : e.apiKey.isEmpty
      · rw [Remote.embedBatch, if_pos noKey, Remote.reply, if_pos noKey]
        rfl
      · rw [reply_of_key noKey] at ih ⊢
        have asked : (e.embedBatch Wire.send batch).run wire = (Remote.answer outcome, later) := by
          rw [Remote.embedBatch, if_neg noKey, StateT.run_bind, sent]
          rfl
        rw [asked]
        cases Remote.answer outcome with
        | error failure => rfl
        | ok vectors =>
            change ((e.embedBatches Wire.send parts).run later).1.map (vectors ++ ·) = _
            rw [ih later]
            cases (Wire.next parts.length later.pending).mapM Remote.answer <;> rfl

def Remote.result (e : Remote) (texts : List String) (wire : Wire) : Except Failure (List Vector64) :=
  ((e.embedMany Wire.send texts).run wire).1

theorem result_eq (sized : 0 < e.batchSize) (texts : List String) (wire : Wire) :
    e.result texts wire = ((e.outcomes texts wire).mapM e.reply).map List.flatten := by
  rw [Remote.result, Remote.embedMany, if_neg (by omega), if_neg (by omega)]
  exact embedBatches_run e _ wire

def Answered (outcome : HttpOutcome) (vectors : List Vector64) : Prop :=
  ∃ items, itemsOf? outcome = some items ∧ Delivered items vectors

def itemCount (outcome : HttpOutcome) : Nat := ((itemsOf? outcome).getD []).length

theorem Answered.length_eq {outcome : HttpOutcome} {vectors : List Vector64}
    (answered : Answered outcome vectors) : vectors.length = itemCount outcome := by
  obtain ⟨items, found, delivered⟩ := answered
  rw [delivered.length_eq, itemCount, found]
  rfl

theorem answered_length {outcomes : List HttpOutcome} {chunks : List (List Vector64)}
    (answered : List.Forall₂ Answered outcomes chunks) :
    chunks.flatten.length = (outcomes.map itemCount).sum := by
  induction answered with
  | nil => rfl
  | cons first _ ih => simp [first.length_eq, ih]

theorem reply_ok {outcome : HttpOutcome} {vectors : List Vector64}
    (made : e.reply outcome = .ok vectors) : Answered outcome vectors := by
  rw [Remote.reply] at made
  split at made
  · cases made
  · exact answer_ok made

theorem reply_error {outcome : HttpOutcome} {failure : Failure}
    (failed : e.reply outcome = .error failure) : Refused outcome failure := by
  rw [Remote.reply] at failed
  split at failed
  · cases failed
    exact .provider _
  · exact answer_error failed

theorem result_ok (sized : 0 < e.batchSize) {vectors : List Vector64}
    (made : e.result texts wire = .ok vectors) : ∃ chunks, vectors = chunks.flatten ∧
      List.Forall₂ Answered (e.outcomes texts wire) chunks := by
  rw [result_eq sized, map_eq_ok_iff] at made
  obtain ⟨chunks, replies, rfl⟩ := made
  exact ⟨chunks, rfl, (mapM_eq_ok_iff.mp replies).imp fun _ _ => reply_ok⟩

theorem result_error (sized : 0 < e.batchSize) {failure : Failure}
    (failed : e.result texts wire = .error failure) :
    ∃ outcome ∈ e.outcomes texts wire, Refused outcome failure := by
  rw [result_eq sized, map_eq_error_iff] at failed
  obtain ⟨before, outcome, after, split, _, first⟩ := mapM_eq_error_iff.mp failed
  exact ⟨outcome, by simp [split], reply_error first⟩

theorem result_noMember (sized : 0 < e.batchSize) (keyed : e.apiKey ≠ "")
    {before after : List HttpOutcome} {outcome : HttpOutcome} {items : List Json}
    (sequence : e.outcomes texts wire = before ++ outcome :: after)
    (earlier : ∀ o ∈ before, ∃ vectors, Remote.answer o = .ok vectors)
    (found : itemsOf? outcome = some items) (odd : ∃ item ∈ items, ¬ IsObject item) :
    e.result texts wire = .error (.data .noMember) := by
  have key : ¬ e.apiKey.isEmpty := by
    rwa [String.isEmpty_iff]
  have replies : (e.outcomes texts wire).mapM e.reply = .error (.data .noMember) := by
    rw [reply_of_key key]
    exact mapM_eq_error_iff.mpr ⟨before, outcome, after, sequence, earlier, answer_noMember found odd⟩
  rw [result_eq sized, replies]
  rfl

structure Complete (batch : List String) (outcome : HttpOutcome) (items : List Json) : Prop where
  found : itemsOf? outcome = some items
  count : items.length = batch.length
  numbered : Numbered items
  vectors : ∀ item ∈ items, ∃ vector, vectorOf item = .ok vector

theorem Complete.answer {batch : List String} {outcome : HttpOutcome} {items : List Json}
    (complete : Complete batch outcome items) :
    ∃ vectors, Remote.answer outcome = .ok vectors ∧ vectors.length = batch.length := by
  obtain ⟨vectors, made⟩ := vectorsOfItems_numbered complete.numbered complete.vectors
  refine ⟨vectors, ?_, ?_⟩
  · rw [answer_of_items complete.found, made, judged]
  · rw [(vectorsOfItems_ok made).length_eq, complete.count]

/-- As many vectors as texts come back in each batch. -/
def Even (parts : List (List String)) (chunks : List (List Vector64)) : Prop :=
  List.Forall₂ (fun batch chunk => chunk.length = batch.length) parts chunks

theorem Even.length_eq {parts : List (List String)} {chunks : List (List Vector64)}
    (even : Even parts chunks) : chunks.flatten.length = parts.flatten.length := by
  induction even with
  | nil => rfl
  | cons first _ ih => simp [first, ih]

theorem Even.zip_flatten {parts : List (List String)} {chunks : List (List Vector64)}
    (even : Even parts chunks) :
    parts.flatten.zip chunks.flatten = (parts.zip chunks).flatMap fun p => p.1.zip p.2 := by
  induction even with
  | nil => rfl
  | cons first _ ih =>
      rw [List.flatten_cons, List.flatten_cons, List.zip_append first.symm, ih, List.zip_cons_cons,
        List.flatMap_cons]

theorem complete_replies {parts : List (List String)} {outcomes : List HttpOutcome}
    (complete : List.Forall₂ (fun batch outcome => ∃ items, Complete batch outcome items) parts outcomes) :
    ∃ chunks, outcomes.mapM Remote.answer = .ok chunks ∧ Even parts chunks := by
  induction complete with
  | nil => exact ⟨[], rfl, .nil⟩
  | cons first _ ih =>
      obtain ⟨items, complete⟩ := first
      obtain ⟨chunk, made, count⟩ := complete.answer
      obtain ⟨chunks, others, even⟩ := ih
      refine ⟨chunk :: chunks, ?_, .cons count even⟩
      rw [List.mapM_cons, made, others]
      rfl

theorem result_complete (sized : 0 < e.batchSize) (keyed : e.apiKey ≠ "")
    (complete : List.Forall₂ (fun batch outcome => ∃ items, Complete batch outcome items)
      (batches e.batchSize.toNat texts) (e.outcomes texts wire)) :
    ∃ chunks, e.result texts wire = .ok chunks.flatten ∧ chunks.flatten.length = texts.length ∧
      List.Forall₂ Answered (e.outcomes texts wire) chunks ∧ texts.zip chunks.flatten =
        ((batches e.batchSize.toNat texts).zip chunks).flatMap fun p => p.1.zip p.2 := by
  have key : ¬ e.apiKey.isEmpty := by
    rwa [String.isEmpty_iff]
  obtain ⟨chunks, replies, even⟩ := complete_replies complete
  have count := even.length_eq
  have beside := even.zip_flatten
  rw [batches_flatten] at count beside
  refine ⟨chunks, ?_, count, (mapM_eq_ok_iff.mp replies).imp fun _ _ => answer_ok, beside⟩
  rw [result_eq sized, reply_of_key key, replies]
  rfl

/-- There is a vector for each item of the answers, batch after batch, or a failure: one of the provider
or, for an item that is no object or too large a number, one that is not noticed. Texts and entries get
their vectors as far as the items go. -/
theorem embedMany_vectors (sized : 0 < e.batchSize) :
    (∀ vectors, e.result texts wire = .ok vectors →
      vectors.length = ((e.outcomes texts wire).map itemCount).sum ∧
        ∃ chunks, vectors = chunks.flatten ∧ List.Forall₂ Answered (e.outcomes texts wire) chunks) ∧
    (∀ failure, e.result texts wire = .error failure →
      ∃ outcome ∈ e.outcomes texts wire, Refused outcome failure) ∧
    (e.apiKey ≠ "" → ∀ before outcome after items,
      e.outcomes texts wire = before ++ outcome :: after →
        (∀ o ∈ before, ∃ vectors, Remote.answer o = .ok vectors) →
          itemsOf? outcome = some items → (∃ item ∈ items, ¬ IsObject item) →
            e.result texts wire = .error (.data .noMember)) ∧
    (e.apiKey ≠ "" →
      List.Forall₂ (fun batch outcome => ∃ items, Complete batch outcome items)
        (batches e.batchSize.toNat texts) (e.outcomes texts wire) →
      ∃ chunks, e.result texts wire = .ok chunks.flatten ∧ chunks.flatten.length = texts.length ∧
        List.Forall₂ Answered (e.outcomes texts wire) chunks ∧ texts.zip chunks.flatten =
          ((batches e.batchSize.toNat texts).zip chunks).flatMap fun p => p.1.zip p.2) ∧
    ∀ a vectors, texts = Index.textsFor true a → e.result texts wire = .ok vectors →
      ∃ rows, Index.records true a vectors = .ok rows ∧
        rows.map (·.id) =
          ((Index.entries a).map (·.id)).take ((e.outcomes texts wire).map itemCount).sum ∧
        (rows.length = texts.length ↔
          texts.length ≤ ((e.outcomes texts wire).map itemCount).sum) := by
  have counted : ∀ vectors, e.result texts wire = .ok vectors →
      vectors.length = ((e.outcomes texts wire).map itemCount).sum := by
    intro vectors made
    obtain ⟨chunks, rfl, answered⟩ := result_ok sized made
    exact answered_length answered
  refine ⟨fun vectors made => ⟨counted vectors made, result_ok sized made⟩,
    fun failure => result_error sized, ?_, result_complete sized, ?_⟩
  · intro keyed before outcome after items sequence earlier found odd
    exact result_noMember sized keyed sequence earlier found odd
  · rintro a vectors rfl made
    have ids := Index.rowsOf_ids (Index.entries a) vectors
    rw [counted vectors made] at ids
    refine ⟨_, rfl, ids, ?_⟩
    have count := congrArg List.length ids
    rw [List.length_map, List.length_take, List.length_map] at count
    rw [count, Index.textsFor, if_pos rfl, List.length_map]
    omega

def inPairs : Remote := { model := .str "m", apiKey := "k", batchSize := 2 }

def single (entries : String) : HttpOutcome :=
  .answered 200 ("\x7b\"data\":[\x7b\"embedding\":" ++ entries ++ "\x7d]\x7d")

def swapped : HttpOutcome := .answered 200 ("\x7b\"data\":[\x7b\"index\":1,\"embedding\":[0,2]\x7d," ++
  "\x7b\"index\":0,\"embedding\":[3,0]\x7d]\x7d")

def stray : HttpOutcome := .answered 200 "\x7b\"data\":[1]\x7d"

def singleItems : List Json := [.obj [("embedding", .arr [.int 0, .int 1])]]

def swappedItems : List Json :=
  [.obj [("index", .int 1), ("embedding", .arr [.int 0, .int 2])],
    .obj [("index", .int 0), ("embedding", .arr [.int 3, .int 0])]]

theorem exists_vectors {items : List Json} (each : items.all fun item => (vectorOf item).isOk) :
    ∀ item ∈ items, ∃ vector, vectorOf item = .ok vector := by
  intro item member
  have ok := List.all_eq_true.mp each item member
  cases made : vectorOf item with
  | ok vector => exact ⟨vector, rfl⟩
  | error fault => simp [made, Except.isOk, Except.toBool] at ok

theorem singleItems_of_shown {found : Option (List Json)} (shown : (match found with
    | some [.obj [("embedding", .arr [.int 0, .int 1])]] => true
    | _ => false) = true) : found = some singleItems := by
  split at shown
  · rfl
  · cases shown

theorem swappedItems_of_shown {found : Option (List Json)} (shown : (match found with
    | some [.obj [("index", .int 1), ("embedding", .arr [.int 0, .int 2])],
        .obj [("index", .int 0), ("embedding", .arr [.int 3, .int 0])]] => true
    | _ => false) = true) : found = some swappedItems := by
  split at shown
  · rfl
  · cases shown

theorem swapped_complete : Complete ["a", "b"] swapped swappedItems where
  found := swappedItems_of_shown (by decide +kernel)
  count := rfl
  numbered := List.Perm.swap _ _ _
  vectors := exists_vectors (by decide +kernel)

theorem single_complete : Complete ["c"] (single "[0,1]") singleItems where
  found := singleItems_of_shown (by decide +kernel)
  count := rfl
  numbered := .refl _
  vectors := exists_vectors (by decide +kernel)

theorem embedMany_vectors_threeTexts : ∃ vectors : List Vector64,
    inPairs.result ["a", "b", "c"] ⟨[swapped, single "[0,1]"], []⟩ = .ok vectors ∧
      vectors.length = 3 := by
  have sized : 0 < inPairs.batchSize := by
    decide
  have complete : List.Forall₂ (fun batch outcome => ∃ items, Complete batch outcome items)
      [["a", "b"], ["c"]] [swapped, single "[0,1]"] :=
    .cons ⟨_, swapped_complete⟩ (.cons ⟨_, single_complete⟩ .nil)
  have parts : batches inPairs.batchSize.toNat ["a", "b", "c"] = [["a", "b"], ["c"]] := by
    decide +kernel
  have outcomes : inPairs.outcomes ["a", "b", "c"] ⟨[swapped, single "[0,1]"], []⟩ =
      [swapped, single "[0,1]"] := by
    rw [Remote.outcomes, parts]
    rfl
  rw [← parts, ← outcomes] at complete
  obtain ⟨_, _, _, delivers, _⟩ := embedMany_vectors sized
  obtain ⟨chunks, made, count, _⟩ := delivers (by decide) complete
  exact ⟨chunks.flatten, made, count⟩

/-- A malformed item is not reported as such, and with too few items the vector of the third text, of two
entries, comes back in the place of the second one. -/
theorem embedMany_unnoticed :
    (inPairs.result ["a"] ⟨[stray], []⟩).map List.length = .error (.data .noMember) ∧
      (inPairs.result ["a", "b", "c"] ⟨[single "[0]", single "[0,1]"], []⟩).map
        (·.map List.length) = .ok [1, 2] := by
  decide +kernel

end Embedding

end Groundwork
