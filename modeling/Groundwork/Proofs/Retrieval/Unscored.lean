import Groundwork.Proofs.Retrieval.Context

/-!
Hits without a score. Wherever a score is read a missing one counts as zero, except where two hits of one
path are compared: there it ends the retrieval. So hits that are never compared, or have scores where they
are, can be given the score zero beforehand.
-/

namespace Groundwork.Retrieval

open Text

variable {S : Type}

section Filling

variable [OfNat S 0]

def Hit.filled (h : Hit S) : Hit S := { h with score := some h.scoreOrZero }

def Ranked.filled (r : Ranked S) : Ranked S := { r with hit := r.hit.filled }

theorem pathsOf_filled (hits : List (Hit S)) : pathsOf (hits.map Hit.filled) = pathsOf hits := by
  rw [pathsOf, List.map_map]
  rfl

theorem mergeHits_filled (first second : List (Hit S)) :
    mergeHits (first.map Hit.filled) (second.map Hit.filled) =
      (mergeHits first second).map Hit.filled := by
  have cons (merged rest : List (Hit S)) (h : Hit S) : mergeHits merged (h :: rest) =
      mergeHits (if merged.any (·.path == h.path) then merged else merged ++ [h]) rest := rfl
  induction second generalizing first with
  | nil => rfl
  | cons h second ih =>
      have known : (first.map Hit.filled).any (·.path == h.filled.path) =
          first.any (·.path == h.path) := by
        rw [List.any_map]
        rfl
      rw [List.map_cons, cons, cons, known, ← ih]
      split
      · rfl
      · rw [List.map_append]
        rfl

theorem joined_filled (first second : List (Hit S)) :
    joined (first.map Hit.filled) (second.map Hit.filled) = (joined first second).map Hit.filled := by
  unfold joined
  rw [List.length_map]
  split
  · rw [← mergeHits_eq, ← mergeHits_eq, mergeHits_filled]
  · rw [List.append_nil, List.append_nil]

end Filling

section Comparing

/-- Two hits have different paths, or scores to be compared by. -/
def Comparable (a b : Hit S) : Prop := a.path = b.path → a.score.isSome ∧ b.score.isSome

instance : Std.Symm (Comparable (S := S)) := ⟨fun _ _ scored same => (scored same.symm).symm⟩

instance (a b : Hit S) : Decidable (Comparable a b) := inferInstanceAs (Decidable (_ → _))

def Compared (hits : List (Hit S)) : Prop := hits.Pairwise Comparable

instance (hits : List (Hit S)) : Decidable (Compared hits) :=
  inferInstanceAs (Decidable (List.Pairwise _ _))

theorem compared_concat {hits : List (Hit S)} {h : Hit S} :
    Compared (hits ++ [h]) ↔ Compared hits ∧ ∀ o ∈ hits, Comparable o h := by
  simp [Compared, List.pairwise_append]

theorem Compared.isSome_eq {hits : List (Hit S)} {h k : Hit S} (compared : Compared hits)
    (first : h ∈ hits) (second : k ∈ hits) (same : h.path = k.path) :
    h.score.isSome = k.score.isSome := by
  by_cases one : h = k
  · rw [one]
  · obtain ⟨scored, scoredToo⟩ := compared.forall first second one same
    rw [scored, scoredToo]

variable [LT S] [DecidableLT S] [OfNat S 0] {hits kept before after : List (Hit S)} {h k : Hit S}

/-- One hit for each path, which is the one to keep whether missing scores are filled in or not. -/
structure Stands (hits kept : List (Hit S)) : Prop where
  paths : pathsOf kept = distinct (pathsOf hits)
  within : kept ⊆ hits
  made : bestByPath hits = .ok kept
  filled : bestByPath (hits.map Hit.filled) = .ok (kept.map Hit.filled)

theorem Stands.concat {next : List (Hit S)} (stands : Stands hits kept)
    (paths : pathsOf next = distinct (pathsOf (hits ++ [h]))) (within : next ⊆ hits ++ [h])
    (put : keepBest h kept = .ok next)
    (putFilled : keepBest h.filled (kept.map Hit.filled) = .ok (next.map Hit.filled)) :
    Stands (hits ++ [h]) next where
  paths := paths
  within := within
  made := by
    rw [bestByPath_concat, stands.made]
    exact put
  filled := by
    rw [List.map_append, List.map_singleton, bestByPath_concat, stands.filled]
    exact putFilled

theorem Stands.append (stands : Stands hits kept) (fresh : h.path ∉ pathsOf hits) :
    Stands (hits ++ [h]) (kept ++ [h]) := by
  have freshKept : h.path ∉ pathsOf kept := by
    rwa [stands.paths, mem_distinct]
  refine stands.concat (paths_append stands.paths fresh) ?_ (keepBest_new freshKept) ?_
  · exact List.append_subset.mpr
      ⟨List.subset_append_of_subset_left _ stands.within, List.subset_append_right _ _⟩
  · rw [List.map_append]
    exact keepBest_new (by rwa [pathsOf_filled])

theorem Stands.replace {new old : S} (stands : Stands hits (before ++ k :: after))
    (same : k.path = h.path) (notBefore : h.path ∉ pathsOf before) (scored : h.score = some new)
    (scoredOld : k.score = some old) :
    Stands (hits ++ [h]) (before ++ (if old < new then h else k) :: after) := by
  have known : h.path ∈ pathsOf hits :=
    mem_pathsOf.mpr ⟨k, stands.within (by simp), same⟩
  have unmoved : (if old < new then h else k).path = k.path := by
    split
    · exact same.symm
    · rfl
  refine stands.concat (paths_replace stands.paths known unmoved) ?_
    (keepBest_old notBefore same scored scoredOld after) ?_
  · intro o member
    have kept := @stands.within o
    simp only [List.mem_append, List.mem_cons] at member kept ⊢
    split at member <;> grind
  · have filledNew : h.filled.score = some new := by rw [Hit.filled, Hit.scoreOrZero, scored]; rfl
    have filledOld : k.filled.score = some old := by rw [Hit.filled, Hit.scoreOrZero, scoredOld]; rfl
    have sameFilled : k.filled.path = h.filled.path := same
    have notBeforeFilled : h.filled.path ∉ pathsOf (before.map Hit.filled) := by
      rwa [pathsOf_filled]
    rw [List.map_append, List.map_cons, List.map_append, List.map_cons, apply_ite Hit.filled]
    exact keepBest_old notBeforeFilled sameFilled filledNew filledOld _

theorem bestByPath_cases (hits : List (Hit S)) :
    (Compared hits ∧ ∃ kept, Stands hits kept) ∨
      (¬ Compared hits ∧ bestByPath hits = .error .missingKey) := by
  induction hits using List.reverseRecOn with
  | nil => exact Or.inl ⟨.nil, [], rfl, List.Subset.refl _, rfl, rfl⟩
  | append_singleton hits h ih =>
      rw [compared_concat]
      rcases ih with ⟨compared, kept, stands⟩ | ⟨uncompared, failed⟩
      · by_cases known : h.path ∈ pathsOf hits
        · obtain ⟨before, k, after, rfl, same, notBefore, _⟩ := exists_place stands.paths known
          have member : k ∈ hits := stands.within (by simp)
          by_cases scored : k.score.isSome ∧ h.score.isSome
          · obtain ⟨old, scoredOld⟩ := Option.isSome_iff_exists.mp scored.1
            obtain ⟨new, scoredNew⟩ := Option.isSome_iff_exists.mp scored.2
            refine Or.inl ⟨⟨compared, ?_⟩, _, stands.replace same notBefore scoredNew scoredOld⟩
            intro o there equal
            rw [compared.isSome_eq there member (equal.trans same.symm)]
            exact scored
          · have missing : h.score = none ∨ k.score = none := by
              rw [← Option.not_isSome_iff_eq_none, ← Option.not_isSome_iff_eq_none, or_comm]
              exact not_and_or.mp scored
            refine Or.inr ⟨fun both => scored (both.2 k member same), ?_⟩
            rw [bestByPath_concat, stands.made]
            exact keepBest_unscored notBefore same missing after
        · refine Or.inl ⟨⟨compared, ?_⟩, _, stands.append known⟩
          exact fun o there same => absurd (mem_pathsOf.mpr ⟨o, there, same⟩) known
      · refine Or.inr ⟨fun both => uncompared both.1, ?_⟩
        rw [bestByPath_concat, failed]
        rfl

theorem Compared.stands (compared : Compared hits) : ∃ kept, Stands hits kept := by
  rcases bestByPath_cases hits with ⟨_, stands⟩ | ⟨uncompared, _⟩
  · exact stands
  · exact absurd compared uncompared

theorem stands_of_bestByPath (made : bestByPath hits = .ok kept) :
    Compared hits ∧ Stands hits kept := by
  rcases bestByPath_cases hits with ⟨compared, other, stands⟩ | ⟨_, failed⟩
  · obtain rfl : other = kept := Except.ok.inj (stands.made.symm.trans made)
    exact ⟨compared, stands⟩
  · rw [failed] at made
    cases made

end Comparing

section Showing

variable [Add S] [Sub S] [OfNat S 0] [OfScientific S] [LT S] [DecidableLT S] {minSimilarity : S}
  {topK : Int} {prompt kind : String} {hits : List (Hit S)}

omit [LT S] [DecidableLT S] in
theorem mapM_rank_filled (prompt : String) (technical : Bool) (kept : List (Hit S)) :
    (kept.map Hit.filled).mapM (rank prompt technical) =
      (kept.mapM (rank prompt technical)).map (·.map Ranked.filled) := by
  induction kept with
  | nil => rfl
  | cons k kept ih =>
      have one : rank prompt technical k.filled = (rank prompt technical k).map Ranked.filled := by
        have same : rerank k.filled prompt technical = rerank k prompt technical := rfl
        rw [rank, rank, same]
        cases rerank k prompt technical <;> rfl
      rw [List.map_cons, List.mapM_cons, List.mapM_cons, one, ih]
      cases rank prompt technical k with
      | error fault => rfl
      | ok r => cases kept.mapM (rank prompt technical) <;> rfl

omit [Add S] [Sub S] [OfScientific S] in
theorem sortRanked_filled (ranked : List (Ranked S)) :
    sortRanked (ranked.map Ranked.filled) = (sortRanked ranked).map Ranked.filled := by
  have alike : ∀ a ∈ ranked, ∀ b ∈ ranked, (!decide (a.adjusted < b.adjusted)) =
      !decide (a.filled.adjusted < b.filled.adjusted) := fun _ _ _ _ => rfl
  exact (List.map_mergeSort alike).symm

theorem firstOf_map {α β : Type} (f : α → β) (n : Int) (xs : List α) :
    firstOf n (xs.map f) = (firstOf n xs).map f := by
  unfold firstOf
  rw [List.length_map]
  split <;> exact List.map_take.symm

omit [Add S] [Sub S] [OfScientific S] in
theorem filter_suits_filled (minSimilarity : S) (technical : Bool) (hits : List (Hit S)) :
    (hits.map Hit.filled).filter (suits minSimilarity technical) =
      (hits.filter (suits minSimilarity technical)).map Hit.filled := List.filter_map

theorem shown_filled
    (compared : Compared (hits.filter (suits minSimilarity (isTechnical prompt kind)))) :
    shown minSimilarity topK prompt kind (hits.map Hit.filled) =
      (shown minSimilarity topK prompt kind hits).map Ranked.filled := by
  obtain ⟨kept, stands⟩ := compared.stands
  rw [shown, shown, select, select, filter_suits_filled, stands.made, stands.filled]
  dsimp only [bind, Except.bind]
  rw [mapM_rank_filled]
  cases kept.mapM (rank prompt (isTechnical prompt kind)) with
  | error fault => rfl
  | ok ranked =>
      change firstOf topK (sortRanked (ranked.map Ranked.filled)) =
        (firstOf topK (sortRanked ranked)).map Ranked.filled
      rw [sortRanked_filled, firstOf_map]

theorem shown_uncompared
    (uncompared : ¬ Compared (hits.filter (suits minSimilarity (isTechnical prompt kind)))) :
    shown minSimilarity topK prompt kind hits = [] := by
  rcases bestByPath_cases (hits.filter (suits minSimilarity (isTechnical prompt kind))) with
    ⟨compared, _⟩ | ⟨_, failed⟩
  · exact absurd compared uncompared
  · rw [shown, select, failed]
    rfl

end Showing

section Searches

variable {σ : Type} {m : Type → Type} [Monad m]

def filledSearch [OfNat S 0] (search : Query → m (Except Failure (List (Hit S)))) (query : Query) :
    m (Except Failure (List (Hit S))) :=
  return (← search query).map (·.map Hit.filled)

def suitable [OfNat S 0] [LT S] [DecidableLT S] (minSimilarity : S) (prompt kind : String)
    (first second : List (Hit S)) : List (Hit S) :=
  (joined first second).filter (suits minSimilarity (isTechnical prompt kind))

theorem contextOf_filled (contentChars : Int) (ranked : List (Ranked Float)) :
    contextOf contentChars (ranked.map Ranked.filled) = contextOf contentChars ranked := by
  rw [contextOf, contextOf, List.map_map, List.length_map]
  rfl

/-- Missing scores can be filled in with zero beforehand, unless suitable hits of one path would have to
be compared by them. Then nothing is found. -/
theorem findContext_filled {search : Query → StateM σ (Except Failure (List (Hit Float)))}
    {settings : RetrievalSettings} {nspace prompt kind : String} {limit : Option Int}
    {world later last : σ} {first second : List (Hit Float)}
    (answered : (search (Query.ofFiles nspace (expand prompt kind)
      (wantedFiles settings limit * 2))).run world = (.ok first, later))
    (answeredAgain : first.length < 5 → (search (Query.ofFiles nspace prompt
      (wantedFiles settings limit * 2))).run later = (.ok second, last)) :
    (Compared (suitable settings.minSimilarity prompt kind first second) →
      ((findContext search settings nspace prompt kind limit).run world).1 =
        ((findContext (filledSearch search) settings nspace prompt kind limit).run world).1) ∧
    (¬ Compared (suitable settings.minSimilarity prompt kind first second) →
      ((findContext search settings nspace prompt kind limit).run world).1 = {}) := by
  have found (given : Query → StateM σ (Except Failure (List (Hit Float)))) :
      ((findContext given settings nspace prompt kind limit).run world).1 =
        contextOf settings.contentChars ((findRanked given settings.minSimilarity
          (wantedFiles settings limit) nspace prompt kind).run world).1 := rfl
  have filledAnswer {query : Query} {before after : σ} {hits : List (Hit Float)}
      (ran : (search query).run before = (.ok hits, after)) :
      (filledSearch search query).run before = (.ok (hits.map Hit.filled), after) := by
    rw [filledSearch, StateT.run_bind, ran]
    rfl
  have filledAgain : (first.map Hit.filled).length < 5 → (filledSearch search (Query.ofFiles nspace
      prompt (wantedFiles settings limit * 2))).run later = (.ok (second.map Hit.filled), last) := by
    rw [List.length_map]
    exact fun few => filledAnswer (answeredAgain few)
  rw [found, found, findRanked_run settings.minSimilarity answered answeredAgain,
    findRanked_run settings.minSimilarity (filledAnswer answered) filledAgain, joined_filled]
  constructor
  · intro compared
    rw [shown_filled compared, contextOf_filled]
  · intro uncompared
    rw [shown_uncompared uncompared]
    rfl

def always (hits : List (Hit S)) (_ : Query) : StateM Unit (Except Failure (List (Hit S))) :=
  return .ok hits

def pageHit (id path : String) (score : Option S) : Hit S :=
  { id, score, metadata? := some [("type", .str "file"), ("filePath", .str path)] }

def twoPages : List (Hit Float) :=
  [pageHit "r1" "src/a.ts" none, pageHit "r2" "src/b.ts" (some (-0.5))]

def samePage : List (Hit Float) :=
  [pageHit "r1" "src/a.ts" (some 0.9), pageHit "r2" "src/a.ts" none]

def openSettings : RetrievalSettings := { minSimilarity := 0 }

def loginContext (search : Query → StateM Unit (Except Failure (List (Hit Float)))) :
    RelevantContext :=
  ((findContext search openSettings "acme-shop-main" "Improve the login form" "improvement" none).run
    ()).1

theorem findContext_filled_twoPages :
    Compared (suitable 0 "Improve the login form" "improvement" twoPages twoPages) ∧
      (loginContext (always twoPages)).paths = ["src/a.ts"] ∧
      loginContext (always twoPages) = loginContext (filledSearch (always twoPages)) := by
  have compared :
      Compared (suitable 0 "Improve the login form" "improvement" twoPages twoPages) := by
    decide +kernel
  have answered (text : String) : (always twoPages (Query.ofFiles "acme-shop-main" text
      (wantedFiles openSettings none * 2))).run () = (.ok twoPages, ()) := rfl
  obtain ⟨same, _⟩ := findContext_filled (answered (expand "Improve the login form" "improvement"))
    fun _ => answered "Improve the login form"
  exact ⟨compared, by decide +kernel, same compared⟩

/-- The file is not found although it is found with the score zero in place of the missing one. -/
theorem samePage_lost : (loginContext (always samePage)).paths = [] ∧
    (loginContext (filledSearch (always samePage))).paths = ["src/a.ts"] := by
  decide +kernel

end Searches

end Groundwork.Retrieval
