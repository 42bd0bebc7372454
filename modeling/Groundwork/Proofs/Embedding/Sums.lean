import Groundwork.Embedding.Hashed
import Groundwork.Proofs.Embedding.Identifiers
import Mathlib.Algebra.BigOperators.Group.List.Basic
import Mathlib.Algebra.Ring.Int.Defs

/-!
The sums behind an embedding. Each bucket holds the sum of the shares that the tokens have in it, so neither
the order of the identifiers nor what stands between them counts, and the sums of texts that a separator keeps
apart are added.
-/

namespace Groundwork.Embedding

def share (dimension place : Nat) (t : Token) : Int :=
  let (chosen, negative) := bucketOf dimension t.text
  if chosen = place then if negative then -(t.halves : Int) else t.halves else 0

theorem length_addToken (sums : List Int) (t : Token) : (addToken sums t).length = sums.length := by
  simp [addToken]

theorem getElem?_addToken (sums : List Int) (t : Token) (place : Nat) :
    (addToken sums t)[place]? = sums[place]?.map (· + share sums.length place t) := by
  rw [addToken, List.getElem?_modify, share]
  rcases bucketOf sums.length t.text with ⟨chosen, negative⟩
  cases sums[place]? with
  | none => rfl
  | some sum =>
      by_cases same : chosen = place
      · cases negative <;> simp [same, Int.sub_eq_add_neg]
      · simp [same]

theorem getElem?_foldl_addToken (ts : List Token) (sums : List Int) (place : Nat) :
    (ts.foldl addToken sums)[place]? =
      sums[place]?.map (· + (ts.map (share sums.length place)).sum) := by
  induction ts generalizing sums with
  | nil => simp
  | cons t ts ih =>
      rw [List.foldl_cons, ih, getElem?_addToken, length_addToken, Option.map_map, List.map_cons,
        List.sum_cons]
      simp [Function.comp_def, Int.add_assoc]

theorem accumulate_eq (dimension : Nat) (text : String) : accumulate dimension text =
    (List.range dimension).map fun place => ((tokens text).map (share dimension place)).sum := by
  refine List.ext_getElem? fun place => ?_
  rw [accumulate, getElem?_foldl_addToken, List.length_replicate]
  by_cases bound : place < dimension
  · simp [bound]
  · simp [bound]

theorem accumulate_perm {dimension : Nat} {s t : String} (perm : (tokens s).Perm (tokens t)) :
    accumulate dimension s = accumulate dimension t := by
  rw [accumulate_eq, accumulate_eq]
  exact List.map_congr_left fun place _ => (perm.map _).sum_eq

theorem accumulate_append {dimension : Nat} {whole s t : String}
    (both : tokens whole = tokens s ++ tokens t) :
    accumulate dimension whole =
      List.zipWith (· + ·) (accumulate dimension s) (accumulate dimension t) := by
  rw [accumulate_eq, accumulate_eq, accumulate_eq, both, List.zipWith_map_left, List.zipWith_map_right]
  simp [List.zipWith_self]

/-- The embedding of a text in buckets depends on its identifiers alone, whatever their order. It is the
normalized vector of exact sums in halves, and behind a separator the sums of what follows are added to those
of what went before. -/
theorem hashedText_identifiers {dimension : Int} (positive : 1 ≤ dimension) :
    (∀ text, hashedText dimension text =
      .ok (normalize ((accumulate dimension.toNat text).map fun sum => Float.ofInt sum / 2.0))) ∧
    (∀ s t ids others, Identifies s.toList ids → Identifies t.toList others → ids.Perm others →
      hashedText dimension s = hashedText dimension t) ∧
    (∀ s sep t : String, sep ≠ "" → (∀ c ∈ sep.toList, isIdentifierPart c = false) →
      accumulate dimension.toNat (s ++ sep ++ t) =
        List.zipWith (· + ·) (accumulate dimension.toNat s) (accumulate dimension.toNat t)) := by
  have made (text : String) : hashedText dimension text = .ok (hashed dimension.toNat text) := by
    have some : 0 < dimension := positive
    simp [hashedText, some]
  refine ⟨made, fun s t ids others found further perm => ?_, fun s sep t filled separates => ?_⟩
  · have tokensPerm : (tokens s).Perm (tokens t) := by
      rw [tokens, tokens, found.identifiers_eq, further.identifiers_eq]
      exact perm.flatMap_right tokensOf
    rw [made, made, hashed, hashed, accumulate_perm tokensPerm]
  · have apart : sep.toList ≠ [] := by simpa using filled
    refine accumulate_append ?_
    rw [tokens, String.toList_append, String.toList_append, List.append_assoc,
      identifiers_separated apart separates, List.flatMap_append, tokens, tokens]

/-- The digit before a name belongs to no identifier, and neither does a letter beyond ASCII. -/
theorem hashedText_identifiers_login :
    (1 : Int) ≤ 8 ∧ hashedText 8 "loadUser, 2x" = hashedText 8 "xé loadUser" := by
  have first : Identifies "loadUser, 2x".toList ["loadUser".toList, ['x']] :=
    identifies_iff.mpr (by decide)
  have second : Identifies "xé loadUser".toList [['x'], "loadUser".toList] :=
    identifies_iff.mpr (by decide)
  have embedded := hashedText_identifiers (show (1 : Int) ≤ 8 by decide)
  exact ⟨by decide, embedded.2.1 _ _ _ _ first second (.swap _ _ [])⟩

end Groundwork.Embedding
