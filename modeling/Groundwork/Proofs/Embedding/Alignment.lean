import Groundwork.Proofs.Batch
import Groundwork.Proofs.Embedding.Batches
import Groundwork.Proofs.Embedding.Lengths

/-!
Vectors beside texts. If the service answers each request with one numbered item for each text, in whatever
order, every text gets the vector of its own item, so neither the size of the batches nor the order of the
items can be told from the vectors.
-/

namespace Groundwork

/-- A service of the web. What it answers may depend on all requests before, the latest of which is the
last one. -/
def Server := List HttpRequest → HttpRequest → HttpOutcome

namespace Server

variable {server : Server}

def send (server : Server) (request : HttpRequest) : StateM (List HttpRequest) HttpOutcome :=
  fun sent => (server sent request, sent ++ [request])

def answers (server : Server) : List HttpRequest → List HttpRequest → List HttpOutcome
  | _, [] => []
  | sent, request :: rest => server sent request :: server.answers (sent ++ [request]) rest

end Server

namespace Embedding

variable {e : Remote} {server : Server} {texts : List String}

def Remote.batched (e : Remote) (texts : List String) : List (List String) :=
  batches e.batchSize.toNat texts

def Remote.requests (e : Remote) (texts : List String) : List HttpRequest :=
  (e.batched texts).map e.request

def Remote.heard (e : Remote) (server : Server) (texts : List String) : List HttpOutcome :=
  server.answers [] (e.requests texts)

inductive IsDouble : Json → Float → Prop
  | float (x : Float) : IsDouble (.float x) x
  | int {n : Int} (bounded : (Float.ofInt n).isInf = false) : IsDouble (.int n) (Float.ofInt n)

def Carries (item : Json) (numbers : List Json) : Prop :=
  ∃ members, item = .obj members ∧ members.lookup "embedding" = some (.arr numbers)

structure Supplies (batch : List String) (outcome : HttpOutcome) (items : List Json) : Prop where
  found : itemsOf? outcome = some items
  count : items.length = batch.length
  numbered : Numbered items
  embedded : ∀ item ∈ items, ∃ numbers xs, Carries item numbers ∧ List.Forall₂ IsDouble numbers xs

/-- Each request is answered with one item for each of its texts, with the index of that text. -/
def Serves (e : Remote) (server : Server) (texts : List String) : Prop :=
  List.Forall₂ (fun batch outcome => ∃ items, Supplies batch outcome items) (e.batched texts)
    (e.heard server texts)

/-- What the service gave for the text at a position: the numbers of the item with its index, in the
answer to its batch. -/
def Gave (e : Remote) (server : Server) (texts : List String) (position : Nat) (numbers : List Json) :
    Prop :=
  ∃ outcome items item, (e.heard server texts)[position / e.batchSize.toNat]? = some outcome ∧
    itemsOf? outcome = some items ∧ item ∈ items ∧
    indexOf item = .ok (.int (position % e.batchSize.toNat : Nat)) ∧ Carries item numbers

def IsEmbedding (numbers : List Json) (vector : Vector64) : Prop :=
  ∃ xs, List.Forall₂ IsDouble numbers xs ∧ Normalized xs vector

section Numbers

variable {value item : Json} {x : Float} {numbers : List Json} {xs : List Float}

theorem numberOf_double (double : IsDouble value x) : numberOf value = .ok x := by
  cases double with
  | float => rfl
  | int bounded =>
      simp only [numberOf]
      rw [if_neg (by simp [bounded])]

theorem numbers_doubles (doubles : List.Forall₂ IsDouble numbers xs) :
    numbers.mapM numberOf = .ok xs :=
  mapM_eq_ok_iff.mpr (doubles.imp fun _ _ => numberOf_double)

theorem vectorOf_carried (carries : Carries item numbers) :
    vectorOf item = (numbers.mapM numberOf).map normalize := by
  obtain ⟨members, rfl, entries⟩ := carries
  rw [vectorOf, memberOf, entries]
  change (numbers.mapM numberOf >>= fun xs => .ok (normalize xs)) = _
  cases numbers.mapM numberOf <;> rfl

theorem Supplies.complete {batch : List String} {outcome : HttpOutcome} {items : List Json}
    (supplies : Supplies batch outcome items) : Complete batch outcome items where
  found := supplies.found
  count := supplies.count
  numbered := supplies.numbered
  vectors := by
    intro item member
    obtain ⟨numbers, xs, carries, doubles⟩ := supplies.embedded item member
    exact ⟨normalize xs, by rw [vectorOf_carried carries, numbers_doubles doubles]; rfl⟩

theorem Serves.complete (serves : Serves e server texts) :
    List.Forall₂ (fun batch outcome => ∃ items, Complete batch outcome items) (e.batched texts)
      (e.heard server texts) :=
  serves.imp fun _ _ ⟨items, supplies⟩ => ⟨items, supplies.complete⟩

end Numbers

section Runs

theorem embedBatches_served (keyed : e.apiKey ≠ "") {parts : List (List String)}
    {chunks : List (List Vector64)} {sent : List HttpRequest}
    (replies : (server.answers sent (parts.map e.request)).mapM Remote.answer = .ok chunks) :
    (e.embedBatches server.send parts).run sent = (.ok chunks.flatten, sent ++ parts.map e.request) := by
  have key : ¬ e.apiKey.isEmpty := by
    rwa [String.isEmpty_iff]
  induction parts generalizing chunks sent with
  | nil =>
      cases replies
      rw [List.map_nil, List.append_nil]
      rfl
  | cons batch parts ih =>
      rw [List.map_cons, Server.answers, List.mapM_cons, bind_eq_ok_iff] at replies
      obtain ⟨vectors, first, replies⟩ := replies
      obtain ⟨others, later, replies⟩ := bind_eq_ok_iff.mp replies
      cases replies
      have asked : (e.embedBatch server.send batch).run sent =
          (.ok vectors, sent ++ [e.request batch]) := by
        rw [Remote.embedBatch, if_neg key, ← first]
        rfl
      rw [Remote.embedBatches, StateT.run_bind, asked]
      change ((e.embedBatches server.send parts).run (sent ++ [e.request batch]) >>= fun later =>
        pure (later.1.map (vectors ++ ·), later.2)) = _
      rw [ih later, List.append_assoc]
      rfl

theorem embedMany_served (keyed : e.apiKey ≠ "") (sized : 0 < e.batchSize)
    (serves : Serves e server texts) : ∃ chunks, (e.heard server texts).mapM Remote.answer = .ok chunks ∧
      Even (e.batched texts) chunks ∧
      (e.embedMany server.send texts).run [] = (.ok chunks.flatten, e.requests texts) := by
  obtain ⟨chunks, replies, even⟩ := complete_replies serves.complete
  refine ⟨chunks, replies, even, ?_⟩
  rw [Remote.embedMany, if_neg (by omega), if_neg (by omega)]
  exact embedBatches_served keyed replies

end Runs

section Places

variable {batch : List String} {outcome : HttpOutcome} {items : List Json} {vectors : List Vector64}

theorem exists_beside {α β : Type} {R : α → β → Prop} {xs : List α} {ys : List β}
    (beside : List.Forall₂ R xs ys) {i : Nat} {y : β} (found : ys[i]? = some y) :
    ∃ x, xs[i]? = some x ∧ R x y := by
  induction beside generalizing i with
  | nil => simp at found
  | cons first _ ih =>
      cases i with
      | zero =>
          obtain rfl := Option.some.inj found
          exact ⟨_, rfl, first⟩
      | succ i => exact ih found

theorem places_nodup (n : Nat) : (places n).Nodup := by
  refine List.Nodup.map ?_ List.nodup_range
  intro i j same
  simp only [Except.ok.injEq, Json.int.injEq] at same
  omega

theorem mem_places {n i : Nat} : .ok (.int i) ∈ places n ↔ i < n := by
  simp only [places, List.mem_map, List.mem_range, Except.ok.injEq, Json.int.injEq]
  constructor
  · rintro ⟨j, bound, same⟩
    omega
  · intro bound
    exact ⟨i, bound, rfl⟩

theorem Numbered.unique (numbered : Numbered items) {item other : Json} (member : item ∈ items)
    (otherMember : other ∈ items) (same : indexOf item = indexOf other) : item = other := by
  have distinct : (items.map indexOf).Nodup := numbered.nodup_iff.mpr (places_nodup _)
  exact List.inj_on_of_nodup_map distinct member otherMember same

theorem Complete.vector_iff (complete : Complete batch outcome items)
    (made : Remote.answer outcome = .ok vectors) (j : Nat) (vector : Vector64) :
    vectors[j]? = some vector ↔
      ∃ item ∈ items, indexOf item = .ok (.int j) ∧ vectorOf item = .ok vector := by
  obtain ⟨others, found, sorted, perm, inOrder, beside⟩ := answer_ok made
  obtain rfl : others = items := Option.some.inj (found.symm.trans complete.found)
  have indexed {i : Nat} {item : Json} (there : sorted[i]? = some item) :
      indexOf item = .ok (.int i) := by
    have bound : i < others.length := by
      rw [← perm.length_eq]
      exact (List.getElem?_eq_some_iff.mp there).1
    have place := congrArg (·[i]?) (inOrder complete.numbered)
    simpa [places, there, bound] using place
  constructor
  · intro given
    obtain ⟨item, there, made⟩ := exists_beside beside given
    exact ⟨item, perm.mem_iff.mp (List.mem_of_getElem? there), indexed there, made⟩
  · rintro ⟨item, member, index, made⟩
    have bound : j < vectors.length := by
      rw [← beside.length_eq, perm.length_eq]
      exact mem_places.mp (index ▸ complete.numbered.mem_iff.mp (List.mem_map_of_mem member))
    obtain ⟨other, there, otherMade⟩ := exists_beside beside (List.getElem?_eq_getElem bound)
    obtain rfl : item = other := complete.numbered.unique member
      (perm.mem_iff.mp (List.mem_of_getElem? there)) (index.trans (indexed there).symm)
    rw [List.getElem?_eq_getElem bound]
    exact congrArg some (Except.ok.inj (otherMade.symm.trans made))

theorem served_vector (sized : 0 < e.batchSize) (serves : Serves e server texts)
    {chunks : List (List Vector64)}
    (replies : (e.heard server texts).mapM Remote.answer = .ok chunks)
    (even : Even (e.batched texts) chunks) {position : Nat} :
    (∀ numbers, Gave e server texts position numbers → ∃ vector,
      chunks.flatten[position]? = some vector ∧
        (numbers.mapM numberOf).map normalize = .ok vector ∧ IsEmbedding numbers vector) ∧
    ∀ vector, chunks.flatten[position]? = some vector →
      ∃ numbers, Gave e server texts position numbers := by
  have some : 0 < e.batchSize.toNat := by
    omega
  have packed : Packed e.batchSize.toNat chunks := (batches_packed some texts).of_lengths even
  have made := mapM_eq_ok_iff.mp replies
  rw [packed.getElem?_flatten some]
  constructor
  · rintro numbers ⟨outcome, items, item, answered, found, member, index, carries⟩
    obtain ⟨chunk, ofBatch, gives⟩ := exists_beside made.flip answered
    obtain ⟨batch, _, others, supplies⟩ := exists_beside serves answered
    obtain rfl : items = others := Option.some.inj (found.symm.trans supplies.found)
    obtain ⟨same, xs, own, doubles⟩ := supplies.embedded item member
    obtain rfl : numbers = same := by
      obtain ⟨members, rfl, entries⟩ := carries
      obtain ⟨_, ⟨⟩, others⟩ := own
      simpa [entries] using others
    have vector := numbers_doubles doubles
    refine ⟨normalize xs, ?_, by rw [vector]; rfl, xs, doubles, normalize_normalized xs⟩
    rw [ofBatch, Option.bind_some]
    refine (supplies.complete.vector_iff gives _ _).mpr ⟨item, member, index, ?_⟩
    rw [vectorOf_carried carries, vector]
    rfl
  · intro vector place
    obtain ⟨chunk, ofBatch, place⟩ := Option.bind_eq_some_iff.mp place
    obtain ⟨outcome, answered, gives⟩ := exists_beside made ofBatch
    obtain ⟨batch, _, items, supplies⟩ := exists_beside serves answered
    obtain ⟨item, member, index, _⟩ := (supplies.complete.vector_iff gives _ vector).mp place
    obtain ⟨numbers, _, carries, _⟩ := supplies.embedded item member
    exact ⟨numbers, outcome, items, item, answered, supplies.found, member, index, carries⟩

end Places

/-- The texts are sent in order, in batches that are not too large, and each of them gets the normalized
doubles of the numbers that the service gave for it. Whoever gives the same numbers for each text, in
whatever batches and order, gives the same vectors. -/
theorem embedMany_aligned (keyed : e.apiKey ≠ "") (sized : 0 < e.batchSize)
    (serves : Serves e server texts) :
    ∃ vectors, (e.embedMany server.send texts).run [] = (.ok vectors, e.requests texts) ∧
      (e.batched texts).flatten = texts ∧
      (∀ batch ∈ e.batched texts, (batch.length : Int) ≤ e.batchSize) ∧
      vectors.length = texts.length ∧
      (∀ position < texts.length, ∃ numbers, Gave e server texts position numbers) ∧
      (∀ position numbers, Gave e server texts position numbers →
        ∃ vector, vectors[position]? = some vector ∧ IsEmbedding numbers vector) ∧
      ∀ size other, 0 < size → Serves { e with batchSize := size } other texts →
        (∀ position numbers, Gave e server texts position numbers →
          Gave { e with batchSize := size } other texts position numbers) →
        (({ e with batchSize := size }.embedMany other.send texts).run []).1 = .ok vectors := by
  obtain ⟨chunks, replies, even, run⟩ := embedMany_served keyed sized serves
  have whole : (e.batched texts).flatten = texts := batches_flatten _ texts
  have count : chunks.flatten.length = texts.length := by
    rw [even.length_eq, whole]
  have gave (position : Nat) (bound : position < texts.length) :
      ∃ numbers, Gave e server texts position numbers :=
    (served_vector sized serves replies even).2 _ (List.getElem?_eq_getElem (by omega))
  refine ⟨chunks.flatten, run, whole, ?_, count, gave, ?_, ?_⟩
  · intro batch member
    have small := (batches_packed (by omega) texts).length_le member
    omega
  · intro position numbers given
    obtain ⟨vector, place, _, embedded⟩ := (served_vector sized serves replies even).1 numbers given
    exact ⟨vector, place, embedded⟩
  · intro size other otherSized otherServes same
    obtain ⟨others, otherReplies, otherEven, otherRun⟩ :=
      embedMany_served (e := { e with batchSize := size }) keyed otherSized otherServes
    have otherCount : others.flatten.length = texts.length := by
      rw [otherEven.length_eq]
      exact congrArg List.length (batches_flatten _ texts)
    rw [otherRun]
    refine congrArg Except.ok (List.ext_getElem? fun position => ?_)
    by_cases bound : position < texts.length
    · obtain ⟨numbers, given⟩ := gave position bound
      obtain ⟨vector, first, made, _⟩ := (served_vector sized serves replies even).1 numbers given
      obtain ⟨otherVector, second, otherMade, _⟩ :=
        (served_vector otherSized otherServes otherReplies otherEven).1 numbers
          (same position numbers given)
      rw [first, second, Except.ok.inj (made.symm.trans otherMade)]
    · rw [List.getElem?_eq_none (by omega), List.getElem?_eq_none (by omega)]

def reversing : Server := fun sent _ => if sent.isEmpty then swapped else single "[0,1]"

theorem swapped_supplies : Supplies ["a", "b"] swapped swappedItems where
  found := swapped_complete.found
  count := swapped_complete.count
  numbered := swapped_complete.numbered
  embedded := by
    have bounded (n : Int) (small : n = 0 ∨ n = 2 ∨ n = 3) : IsDouble (.int n) (Float.ofInt n) := by
      rcases small with rfl | rfl | rfl <;> exact .int (by decide +kernel)
    rintro item member
    rcases List.mem_pair.mp member with rfl | rfl
    · exact ⟨_, _, ⟨_, rfl, rfl⟩, .cons (bounded 0 (by decide)) (.cons (bounded 2 (by decide)) .nil)⟩
    · exact ⟨_, _, ⟨_, rfl, rfl⟩, .cons (bounded 3 (by decide)) (.cons (bounded 0 (by decide)) .nil)⟩

theorem single_supplies : Supplies ["c"] (single "[0,1]") singleItems where
  found := single_complete.found
  count := single_complete.count
  numbered := single_complete.numbered
  embedded := by
    rintro item member
    obtain rfl := List.mem_singleton.mp member
    exact ⟨_, _, ⟨_, rfl, rfl⟩, .cons (.int (by decide +kernel)) (.cons (.int (by decide +kernel)) .nil)⟩

theorem embedMany_aligned_reversing : ∃ vectors vector,
    (inPairs.embedMany reversing.send ["a", "b", "c"]).run [] =
      (.ok vectors, [inPairs.request ["a", "b"], inPairs.request ["c"]]) ∧ vectors.length = 3 ∧
    vectors[0]? = some vector ∧ IsEmbedding [.int 3, .int 0] vector := by
  have parts : inPairs.batched ["a", "b", "c"] = [["a", "b"], ["c"]] := by
    decide +kernel
  have requests : inPairs.requests ["a", "b", "c"] =
      [inPairs.request ["a", "b"], inPairs.request ["c"]] := by
    rw [Remote.requests, parts]
    rfl
  have heard : inPairs.heard reversing ["a", "b", "c"] = [swapped, single "[0,1]"] := by
    rw [Remote.heard, requests]
    rfl
  have serves : Serves inPairs reversing ["a", "b", "c"] := by
    rw [Serves, parts, heard]
    exact .cons ⟨_, swapped_supplies⟩ (.cons ⟨_, single_supplies⟩ .nil)
  obtain ⟨vectors, run, _, _, count, _, given, _⟩ :=
    embedMany_aligned (by decide) (by decide) serves
  have gave : Gave inPairs reversing ["a", "b", "c"] 0 [.int 3, .int 0] := by
    refine ⟨swapped, swappedItems, _, ?_, swapped_complete.found,
      List.mem_cons_of_mem _ (List.mem_singleton_self _), rfl, _, rfl, rfl⟩
    rw [heard]
    rfl
  obtain ⟨vector, place, embedded⟩ := given 0 _ gave
  exact ⟨vectors, vector, requests ▸ run, count, place, embedded⟩

end Embedding

end Groundwork
