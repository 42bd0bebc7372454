import Groundwork.Embedding.Basic
import Groundwork.Proofs.Each
import Groundwork.Proofs.Json.Order

/-!
What one answer of the service gives: a vector for each of its items, in the order of their indices. An
item that is no object and a number beyond the doubles are not noticed as faults of the answer.
-/

namespace Groundwork.Embedding

def IsObject (item : Json) : Prop := ∃ members, item = .obj members

def Overflows (value : Json) : Prop :=
  ∃ n, value = .int n ∧ (Float.ofInt n).isInf = true

def HasOverflow (item : Json) : Prop :=
  ∃ value entries, memberOf "embedding" item = .ok value ∧ elementsOf value = .ok entries ∧
    ∃ entry ∈ entries, Overflows entry

def places (n : Nat) : List (Except DataFault Json) :=
  (List.range n).map fun (i : Nat) => .ok (.int i)

def Numbered (items : List Json) : Prop := (items.map indexOf).Perm (places items.length)

section Faults

variable {name : String} {value item : Json} {fault : DataFault}

theorem memberOf_error (failed : memberOf name value = .error fault) : isMalformed fault = true := by
  unfold memberOf at failed
  split at failed
  · split at failed <;> cases failed
    rfl
  · cases failed
    rfl

theorem elementsOf_error (failed : elementsOf value = .error fault) : isMalformed fault = true := by
  unfold elementsOf at failed
  split at failed <;> cases failed
  rfl

theorem numberOf_error (failed : numberOf value = .error fault) :
    isMalformed fault = true ∨ fault = .tooLarge ∧ Overflows value := by
  cases value with
  | int n =>
      simp only [numberOf] at failed
      split at failed <;> cases failed
      rename_i infinite
      exact Or.inr ⟨rfl, n, rfl, infinite⟩
  | str s =>
      simp only [numberOf] at failed
      split at failed <;> cases failed
      exact Or.inl rfl
  | float | bool => cases failed
  | null | arr | obj =>
      cases failed
      exact Or.inl rfl

theorem vectorOf_error (failed : vectorOf item = .error fault) :
    isMalformed fault = true ∨ fault = .tooLarge ∧ HasOverflow item := by
  rcases bind_eq_error_iff.mp failed with noMember | ⟨value, found, failed⟩
  · exact Or.inl (memberOf_error noMember)
  rcases bind_eq_error_iff.mp failed with noParts | ⟨entries, parts, failed⟩
  · exact Or.inl (elementsOf_error noParts)
  rcases bind_eq_error_iff.mp failed with noNumbers | ⟨xs, _, impossible⟩
  · obtain ⟨before, entry, after, rfl, _, wrong⟩ := mapM_eq_error_iff.mp noNumbers
    refine (numberOf_error wrong).imp_right fun ⟨large, overflows⟩ => ⟨large, ?_⟩
    exact ⟨value, _, found, parts, entry, by simp, overflows⟩
  · cases impossible

theorem indexOf_isObject : IsObject item ↔ ∃ index, indexOf item = .ok index := by
  cases item <;> simp [IsObject, indexOf]

theorem indexOf_error (failed : indexOf item = .error fault) : fault = .noMember := by
  unfold indexOf at failed
  split at failed <;> cases failed
  rfl

end Faults

section Items

variable {items : List Json} {keyed : List (Json × Json)} {vectors : List Vector64}
  {fault : DataFault}

def withIndex (item : Json) : Except DataFault (Json × Json) := do return (← indexOf item, item)

def vectorsOfItems (items : List Json) : Except DataFault (List Vector64) := do
  match Json.ascending? (← items.mapM withIndex) with
  | some sorted => sorted.mapM vectorOf
  | none => .error .wrongKind

theorem vectorsOf_eq (answer : Json) :
    vectorsOf answer = (memberOf "data" answer >>= elementsOf) >>= vectorsOfItems := by
  rw [vectorsOf]
  cases memberOf "data" answer with
  | error fault => rfl
  | ok data => cases elementsOf data <;> rfl

theorem withIndex_iff {item : Json} {key : Json × Json} :
    withIndex item = .ok key ↔ indexOf item = .ok key.1 ∧ item = key.2 := by
  obtain ⟨index, same⟩ := key
  rw [withIndex, bind_eq_ok_iff]
  simp [pure, Except.pure]

theorem withIndex_error {item : Json} (failed : withIndex item = .error fault) :
    fault = .noMember ∧ ¬ IsObject item := by
  rcases bind_eq_error_iff.mp failed with noIndex | ⟨index, _, impossible⟩
  · rw [indexOf_isObject, noIndex]
    exact ⟨indexOf_error noIndex, by simp⟩
  · cases impossible

theorem items_of_keyed (made : items.mapM withIndex = .ok keyed) : keyed.map (·.2) = items := by
  have beside := mapM_eq_ok_iff.mp made
  clear made
  induction beside with
  | nil => rfl
  | cons first _ ih => rw [List.map_cons, ih, ← (withIndex_iff.mp first).2]

theorem vectorsOfItems_noMember (odd : ∃ item ∈ items, ¬ IsObject item) :
    vectorsOfItems items = .error .noMember := by
  obtain ⟨item, member, notObject⟩ := odd
  have failed : withIndex item = .error .noMember := by
    cases made : withIndex item with
    | error fault => rw [(withIndex_error made).1]
    | ok key => exact absurd (indexOf_isObject.mpr ⟨_, (withIndex_iff.mp made).1⟩) notObject
  obtain ⟨fault, made⟩ := mapM_error member failed
  obtain ⟨_, _, _, _, _, first⟩ := mapM_eq_error_iff.mp made
  rw [vectorsOfItems, made, (withIndex_error first).1]
  rfl

theorem vectorsOfItems_error (failed : vectorsOfItems items = .error fault) :
    isMalformed fault = true ∨ (fault = .noMember ∧ ∃ item ∈ items, ¬ IsObject item) ∨
      fault = .tooLarge ∧ ∃ item ∈ items, HasOverflow item := by
  rcases bind_eq_error_iff.mp failed with noKeys | ⟨keyed, made, failed⟩
  · obtain ⟨before, item, after, rfl, _, first⟩ := mapM_eq_error_iff.mp noKeys
    obtain ⟨rfl, notObject⟩ := withIndex_error first
    exact Or.inr (Or.inl ⟨rfl, item, by simp, notObject⟩)
  · split at failed
    · rename_i sorted order
      obtain ⟨before, item, after, rfl, _, first⟩ := mapM_eq_error_iff.mp failed
      have member : item ∈ items := by
        rw [← items_of_keyed made, ← (Json.sortBy?_perm order).mem_iff]
        simp
      rcases vectorOf_error first with malformed | ⟨large, overflows⟩
      · exact Or.inl malformed
      · exact Or.inr (Or.inr ⟨large, item, member, overflows⟩)
    · cases failed
      exact Or.inl rfl

def numberIn : Except DataFault Json → Int
  | .ok (.int n) => n
  | _ => 0

theorem Numbered.indexOf_eq (numbered : Numbered items) {item : Json} (member : item ∈ items) :
    indexOf item = .ok (.int (numberIn (indexOf item))) := by
  have among := numbered.mem_iff.mp (List.mem_map_of_mem member)
  obtain ⟨i, _, index⟩ := List.mem_map.mp among
  rw [← index, numberIn]

theorem Numbered.mapM_withIndex (numbered : Numbered items) : items.mapM withIndex =
    .ok ((items.map fun item => (numberIn (indexOf item), item)).map fun p => (.int p.1, p.2)) := by
  rw [mapM_eq_ok_iff, List.map_map, List.forall₂_map_right_iff, List.forall₂_same]
  exact fun item member => withIndex_iff.mpr ⟨numbered.indexOf_eq member, rfl⟩

theorem Numbered.ascending (numbered : Numbered items) : ∃ sorted,
    Json.ascending? ((items.map fun item => (numberIn (indexOf item), item)).map
        fun p => (.int p.1, p.2)) = some sorted ∧ sorted.map indexOf = places items.length := by
  generalize keyed : (items.map fun item => (numberIn (indexOf item), item)) = pairs
  refine ⟨_, Json.ascending?_ints pairs, ?_⟩
  have perm := List.mergeSort_perm pairs fun a b => a.1 ≤ b.1
  have same : ∀ p ∈ pairs.mergeSort fun a b => a.1 ≤ b.1, indexOf p.2 = .ok (.int p.1) := by
    intro p member
    rw [perm.mem_iff, ← keyed] at member
    obtain ⟨item, among, rfl⟩ := List.mem_map.mp member
    exact numbered.indexOf_eq among
  have numbers : (pairs.map (·.1)).Perm ((List.range pairs.length).map Int.ofNat) := by
    have decoded := numbered.map numberIn
    rw [places, List.map_map, List.map_map] at decoded
    rw [← keyed, List.map_map, List.length_map]
    exact decoded
  calc ((pairs.mergeSort fun a b => a.1 ≤ b.1).map (·.2)).map indexOf
      = (pairs.mergeSort fun a b => a.1 ≤ b.1).map fun p => .ok (.int p.1) := by
        rw [List.map_map]
        exact List.map_congr_left same
    _ = ((pairs.mergeSort fun a b => a.1 ≤ b.1).map (·.1)).map fun n => .ok (.int n) := by
        rw [List.map_map]
        rfl
    _ = ((List.range pairs.length).map Int.ofNat).map fun n => .ok (.int n) := by
        rw [Json.sorted_places numbers]
    _ = places items.length := by
        rw [List.map_map, ← keyed, List.length_map]
        rfl

/-- The vectors belong to the items, in the order of their numbers if they have any. -/
def Delivered (items : List Json) (vectors : List Vector64) : Prop :=
  ∃ sorted, sorted.Perm items ∧ (Numbered items → sorted.map indexOf = places items.length) ∧
    List.Forall₂ (fun item vector => vectorOf item = .ok vector) sorted vectors

theorem vectorsOfItems_ok (made : vectorsOfItems items = .ok vectors) : Delivered items vectors := by
  obtain ⟨keyed, keys, made⟩ := bind_eq_ok_iff.mp made
  split at made
  · rename_i sorted order
    refine ⟨sorted, ?_, ?_, mapM_eq_ok_iff.mp made⟩
    · rw [← items_of_keyed keys]
      exact Json.sortBy?_perm order
    · intro numbered
      obtain ⟨other, otherOrder, inOrder⟩ := numbered.ascending
      obtain rfl := Except.ok.inj (keys.symm.trans numbered.mapM_withIndex)
      obtain rfl := Option.some.inj (order.symm.trans otherOrder)
      exact inOrder
  · cases made

theorem vectorsOfItems_numbered (numbered : Numbered items)
    (each : ∀ item ∈ items, ∃ vector, vectorOf item = .ok vector) :
    ∃ vectors, vectorsOfItems items = .ok vectors := by
  obtain ⟨sorted, order, _⟩ := numbered.ascending
  have perm := Json.sortBy?_perm order
  rw [List.map_map, List.map_map] at perm
  obtain ⟨vectors, made, _⟩ := mapM_ok fun item member => each item (by
    simpa using perm.mem_iff.mp member)
  refine ⟨vectors, ?_⟩
  rw [vectorsOfItems, numbered.mapM_withIndex]
  dsimp only [bind, Except.bind]
  rw [order]
  exact made

theorem Delivered.length_eq (delivered : Delivered items vectors) : vectors.length = items.length := by
  obtain ⟨sorted, perm, _, beside⟩ := delivered
  rw [← beside.length_eq, perm.length_eq]

end Items

section Outcomes

variable {outcome : HttpOutcome} {items : List Json} {vectors : List Vector64} {failure : Failure}

def itemsOf? : HttpOutcome → Option (List Json)
  | .answered status body =>
    if 400 ≤ status then none
    else match Json.read body.toList with
      | .ok document => (memberOf "data" document >>= elementsOf).toOption
      | .error _ => none
  | _ => none

inductive Refused (outcome : HttpOutcome) : Failure → Prop
  | provider (fault : ProviderFault) : Refused outcome (.provider fault)
  | noObject {items : List Json} {item : Json} (found : itemsOf? outcome = some items)
      (member : item ∈ items) (odd : ¬ IsObject item) : Refused outcome (.data .noMember)
  | overflow {items : List Json} {item : Json} (found : itemsOf? outcome = some items)
      (member : item ∈ items) (overflows : HasOverflow item) : Refused outcome (.data .tooLarge)
  | broken {failure : Failure} (same : outcome = .broken failure) : Refused outcome failure

theorem dataOf_error {document : Json} {fault : DataFault}
    (failed : memberOf "data" document >>= elementsOf = .error fault) : isMalformed fault = true := by
  rcases bind_eq_error_iff.mp failed with noMember | ⟨data, _, noParts⟩
  · exact memberOf_error noMember
  · exact elementsOf_error noParts

def judged : Except DataFault (List Vector64) → Except Failure (List Vector64)
  | .ok vectors => .ok vectors
  | .error fault => .error (if isMalformed fault then .provider .malformedEmbeddings else .data fault)

theorem answer_of_items (found : itemsOf? outcome = some items) :
    Remote.answer outcome = judged (vectorsOfItems items) := by
  cases outcome with
  | unreachable | broken => cases found
  | answered status body =>
      simp only [itemsOf?] at found
      split at found
      · cases found
      · rename_i accepted
        split at found
        · rename_i document parsed
          cases data : memberOf "data" document >>= elementsOf with
          | error fault => simp [data, Except.toOption] at found
          | ok others =>
              obtain rfl : others = items := by simpa [data, Except.toOption] using found
              have same : vectorsOf document = vectorsOfItems others := by
                rw [vectorsOf_eq, data]
                rfl
              simp only [Remote.answer, if_neg accepted, parsed, same]
              cases vectorsOfItems others <;> rfl
        · cases found

theorem answer_of_noItems (found : itemsOf? outcome = none) :
    ∃ failure, Remote.answer outcome = .error failure ∧ Refused outcome failure := by
  cases outcome with
  | unreachable reason => exact ⟨_, rfl, .provider _⟩
  | broken failure => exact ⟨_, rfl, .broken rfl⟩
  | answered status body =>
      simp only [itemsOf?] at found
      split at found
      · rename_i rejected
        exact ⟨_, if_pos rejected, .provider _⟩
      · rename_i accepted
        split at found
        · rename_i document parsed
          cases data : memberOf "data" document >>= elementsOf with
          | ok items => simp [data, Except.toOption] at found
          | error fault =>
              have same : vectorsOf document = .error fault := by
                rw [vectorsOf_eq, data]
                rfl
              refine ⟨.provider .malformedEmbeddings, ?_, .provider _⟩
              simp only [Remote.answer, if_neg accepted, parsed, same, dataOf_error data, if_true]
        · rename_i fault unreadable
          refine ⟨.provider .malformedEmbeddings, ?_, .provider _⟩
          simp only [Remote.answer, if_neg accepted, unreadable]

theorem answer_ok (made : Remote.answer outcome = .ok vectors) :
    ∃ items, itemsOf? outcome = some items ∧ Delivered items vectors := by
  cases found : itemsOf? outcome with
  | none =>
      obtain ⟨failure, failed, _⟩ := answer_of_noItems found
      simp [made] at failed
  | some items =>
      rw [answer_of_items found] at made
      cases inside : vectorsOfItems items with
      | error fault => simp [inside, judged] at made
      | ok others =>
          obtain rfl : others = vectors := by simpa [inside, judged] using made
          exact ⟨items, rfl, vectorsOfItems_ok inside⟩

theorem answer_error (failed : Remote.answer outcome = .error failure) : Refused outcome failure := by
  cases found : itemsOf? outcome with
  | none =>
      obtain ⟨other, made, refused⟩ := answer_of_noItems found
      obtain rfl := Except.error.inj (made.symm.trans failed)
      exact refused
  | some items =>
      rw [answer_of_items found] at failed
      cases wrong : vectorsOfItems items with
      | ok vectors => simp [wrong, judged] at failed
      | error fault =>
          rw [wrong] at failed
          cases failed
          rcases vectorsOfItems_error wrong with malformed | ⟨rfl, item, member, odd⟩ |
            ⟨rfl, item, member, overflows⟩
          · rw [if_pos malformed]
            exact .provider _
          · exact .noObject found member odd
          · exact .overflow found member overflows

theorem answer_noMember (found : itemsOf? outcome = some items)
    (odd : ∃ item ∈ items, ¬ IsObject item) : Remote.answer outcome = .error (.data .noMember) := by
  rw [answer_of_items found, vectorsOfItems_noMember odd]
  rfl

end Outcomes

end Groundwork.Embedding
