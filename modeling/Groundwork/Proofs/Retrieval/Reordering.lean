import Groundwork.Proofs.Retrieval.Unscored

/-!
Hits in another order. Where each path has one best hit and no two of these have the same adjusted score,
what is found does not depend on the order of the hits.
-/

namespace Groundwork.Retrieval

open Text

variable {S : Type}

section Kept

variable [LinearOrder S] [OfNat S 0] {hits others kept keptOthers : List (Hit S)} {h k : Hit S}

def Highest (hits : List (Hit S)) (h : Hit S) : Prop :=
  h ∈ hits ∧ ∀ o ∈ hits, o.path = h.path → o.scoreOrZero ≤ h.scoreOrZero

def Distinguished (a b : Hit S) : Prop := a.path ≠ "" → a.path = b.path → a.score ≠ b.score

instance : Std.Symm (Distinguished (S := S)) :=
  ⟨fun _ _ differ path same equal => differ (same ▸ path) same.symm equal.symm⟩

instance [DecidableEq S] (a b : Hit S) : Decidable (Distinguished a b) :=
  inferInstanceAs (Decidable (_ → _ → _))

theorem Highest.perm (highest : Highest hits h) (perm : hits.Perm others) : Highest others h :=
  ⟨perm.mem_iff.mp highest.1, fun o member => highest.2 o (perm.mem_iff.mpr member)⟩

omit [LinearOrder S] in
theorem Compared.scored_of_ne (compared : Compared hits) (member : h ∈ hits) (other : k ∈ hits)
    (same : h.path = k.path) (differ : h ≠ k) : Scored h :=
  scored_of_isSome (compared.forall member other differ same).1

theorem Highest.unique (compared : Compared hits) (distinguished : hits.Pairwise Distinguished)
    (highest : Highest hits h) (highestToo : Highest hits k) (path : h.path ≠ "")
    (same : h.path = k.path) : h = k := by
  by_contra differ
  have scored := compared.scored_of_ne highest.1 highestToo.1 same differ
  have scoredToo := compared.scored_of_ne highestToo.1 highest.1 same.symm (Ne.symm differ)
  have level : h.scoreOrZero = k.scoreOrZero :=
    le_antisymm (highestToo.2 h highest.1 same) (highest.2 k highestToo.1 same.symm)
  have differs := distinguished.forall highest.1 highestToo.1 differ path same
  rw [Scored] at scored scoredToo
  rw [scored, scoredToo, level] at differs
  exact differs rfl

theorem Stands.highest (stands : Stands hits kept) (member : k ∈ kept) : Highest hits k := by
  have scored : ∀ o ∈ hits.map Hit.filled, Scored o := by
    intro o among
    obtain ⟨h, _, rfl⟩ := List.mem_map.mp among
    rfl
  obtain ⟨filled, made, represents⟩ := bestByPath_represents scored
  obtain rfl : filled = kept.map Hit.filled := Except.ok.inj (made.symm.trans stands.filled)
  refine ⟨stands.within member, fun o among same => ?_⟩
  have best := represents.best k.filled (List.mem_map_of_mem member)
  exact best.highest (o := o.filled) (List.mem_map_of_mem among) same

theorem Stands.mem_iff (stands : Stands hits kept) (compared : Compared hits)
    (distinguished : hits.Pairwise Distinguished) (paths : ∀ o ∈ hits, o.path ≠ "") :
    h ∈ kept ↔ Highest hits h := by
  refine ⟨stands.highest, fun highest => ?_⟩
  have path : h.path ∈ pathsOf kept := by
    rw [stands.paths, mem_distinct]
    exact mem_pathsOf.mpr ⟨h, highest.1, rfl⟩
  obtain ⟨k, member, same⟩ := mem_pathsOf.mp path
  rwa [highest.unique compared distinguished (stands.highest member) (paths h highest.1) same.symm]

theorem Stands.nodup (stands : Stands hits kept) : kept.Nodup := by
  refine List.Nodup.of_map (·.path) ?_
  change (pathsOf kept).Nodup
  rw [stands.paths]
  exact distinct_nodup _

theorem Stands.perm (stands : Stands hits kept) (standsToo : Stands others keptOthers)
    (perm : hits.Perm others) (compared : Compared hits) (distinguished : hits.Pairwise Distinguished)
    (paths : ∀ o ∈ hits, o.path ≠ "") : kept.Perm keptOthers := by
  refine (List.perm_ext_iff_of_nodup stands.nodup standsToo.nodup).mpr fun h => ?_
  have comparedToo : Compared others := (perm.pairwise_iff (Std.Symm.symm _ _)).mp compared
  have pathsToo : ∀ o ∈ others, o.path ≠ "" := fun o member => paths o (perm.mem_iff.mpr member)
  rw [stands.mem_iff compared distinguished paths,
    standsToo.mem_iff comparedToo ((perm.pairwise_iff (Std.Symm.symm _ _)).mp distinguished) pathsToo]
  exact ⟨fun highest => highest.perm perm, fun highest => highest.perm perm.symm⟩

end Kept

section Shown

variable [Add S] [Sub S] [OfNat S 0] [OfScientific S] [LinearOrder S] {minSimilarity : S}
  {topK : Int} {prompt kind : String} {hits others : List (Hit S)}

def Untied (prompt kind : String) (hits : List (Hit S)) : Prop :=
  ∀ a b, Highest hits a → Highest hits b → a.path ≠ b.path →
    ∀ score, rerank a prompt (isTechnical prompt kind) = .ok score →
      rerank b prompt (isTechnical prompt kind) ≠ .ok score

theorem Untied.perm (untied : Untied prompt kind hits) (perm : hits.Perm others) :
    Untied prompt kind others :=
  fun a b highest highestToo => untied a b (highest.perm perm.symm) (highestToo.perm perm.symm)

omit [Add S] [Sub S] [OfNat S 0] [OfScientific S] in
theorem sortRanked_eq_of_perm {ranked rankedOthers : List (Ranked S)}
    (perm : ranked.Perm rankedOthers)
    (level : ∀ a ∈ ranked, ∀ b ∈ ranked, a.adjusted = b.adjusted → a = b) :
    sortRanked ranked = sortRanked rankedOthers := by
  have sorted := (sortRanked_perm ranked).trans (perm.trans (sortRanked_perm rankedOthers).symm)
  apply sorted.eq_of_pairwise _ (List.pairwise_mergeSort notBelow_trans notBelow_total ranked)
    (List.pairwise_mergeSort notBelow_trans notBelow_total rankedOthers)
  intro a b member memberOthers first second
  simp only [Bool.not_eq_true', decide_eq_false_iff_not, not_lt] at first second
  have within : b ∈ ranked :=
    perm.mem_iff.mpr ((sortRanked_perm rankedOthers).mem_iff.mp memberOthers)
  exact level a ((sortRanked_perm ranked).mem_iff.mp member) b within (le_antisymm second first)

theorem Untied.eq_of_level {kept : List (Hit S)} {ranked : List (Ranked S)}
    (untied : Untied prompt kind hits) (compared : Compared hits)
    (distinguished : hits.Pairwise Distinguished) (paths : ∀ o ∈ hits, o.path ≠ "")
    (highest : ∀ k ∈ kept, Highest hits k)
    (ranks : kept.mapM (rank prompt (isTechnical prompt kind)) = .ok ranked) :
    ∀ a ∈ ranked, ∀ b ∈ ranked, a.adjusted = b.adjusted → a = b := by
  obtain ⟨same, adjusted⟩ := ranked_hits (mapM_eq_ok_iff.mp ranks)
  have stands (r : Ranked S) (member : r ∈ ranked) : Highest hits r.hit :=
    highest r.hit (same ▸ List.mem_map_of_mem member)
  rintro ⟨first, score⟩ member ⟨second, other⟩ memberToo level
  have highestFirst := stands _ member
  have highestSecond := stands _ memberToo
  have adjustedFirst := adjusted _ member
  have adjustedSecond := adjusted _ memberToo
  dsimp only at level highestFirst highestSecond adjustedFirst adjustedSecond
  subst level
  by_cases path : first.path = second.path
  · rw [highestFirst.unique compared distinguished highestSecond (paths _ highestFirst.1) path]
  · exact absurd adjustedSecond (untied _ _ highestFirst highestSecond path score adjustedFirst)

theorem sortRanked_perm_hits {kept : List (Hit S)} {ranked : List (Ranked S)}
    (perm : hits.Perm others) (distinguished : hits.Pairwise Distinguished)
    (untied : Untied prompt kind hits) (paths : ∀ o ∈ hits, o.path ≠ "")
    (best : bestByPath hits = .ok kept)
    (ranks : kept.mapM (rank prompt (isTechnical prompt kind)) = .ok ranked) :
    ∃ keptOthers rankedOthers, bestByPath others = .ok keptOthers ∧
      keptOthers.mapM (rank prompt (isTechnical prompt kind)) = .ok rankedOthers ∧
        sortRanked rankedOthers = sortRanked ranked := by
  obtain ⟨compared, stands⟩ := stands_of_bestByPath best
  have comparedOthers : Compared others := (perm.pairwise_iff (Std.Symm.symm _ _)).mp compared
  obtain ⟨keptOthers, standsOthers⟩ := comparedOthers.stands
  obtain ⟨rankedOthers, ranksOthers, same⟩ :=
    mapM_perm (stands.perm standsOthers perm compared distinguished paths) ranks
  have level := untied.eq_of_level compared distinguished paths (fun _ => stands.highest) ranks
  exact ⟨keptOthers, rankedOthers, standsOthers.made, ranksOthers,
    (sortRanked_eq_of_perm same level).symm⟩

omit [LinearOrder S] in
theorem select_ok_iff [LT S] [DecidableLT S] {minSimilarity : S} {chosen : List (Ranked S)} :
    select minSimilarity topK prompt kind hits = .ok chosen ↔ ∃ kept ranked,
      bestByPath (hits.filter (suits minSimilarity (isTechnical prompt kind))) = .ok kept ∧
        kept.mapM (rank prompt (isTechnical prompt kind)) = .ok ranked ∧
          firstOf topK (sortRanked ranked) = chosen := by
  simp only [select, bind_eq_ok_iff, pure, Except.pure, Except.ok.injEq, ← exists_and_left]

theorem select_perm {chosen : List (Ranked S)} (perm : hits.Perm others)
    (distinguished : hits.Pairwise Distinguished)
    (untied : Untied prompt kind (hits.filter (suits minSimilarity (isTechnical prompt kind))))
    (made : select minSimilarity topK prompt kind hits = .ok chosen) :
    select minSimilarity topK prompt kind others = .ok chosen := by
  have paths : ∀ o ∈ hits.filter (suits minSimilarity (isTechnical prompt kind)), o.path ≠ "" := by
    intro o member
    have suited := (List.mem_filter.mp member).2
    rw [suits_eq, decide_eq_true_eq] at suited
    exact suited.1
  obtain ⟨kept, ranked, best, ranks, rfl⟩ := select_ok_iff.mp made
  obtain ⟨keptOthers, rankedOthers, bestOthers, ranksOthers, same⟩ := sortRanked_perm_hits
    (perm.filter _) (distinguished.sublist List.filter_sublist) untied paths best ranks
  exact select_ok_iff.mpr ⟨keptOthers, rankedOthers, bestOthers, ranksOthers, by rw [same]⟩

theorem shown_perm (perm : hits.Perm others) (distinguished : hits.Pairwise Distinguished)
    (untied : Untied prompt kind (hits.filter (suits minSimilarity (isTechnical prompt kind)))) :
    shown minSimilarity topK prompt kind hits = shown minSimilarity topK prompt kind others := by
  unfold shown
  cases made : select minSimilarity topK prompt kind hits with
  | ok chosen => rw [select_perm perm distinguished untied made]
  | error fault =>
      cases madeOthers : select minSimilarity topK prompt kind others with
      | error fault => rfl
      | ok chosen =>
          have back := select_perm perm.symm ((perm.pairwise_iff (Std.Symm.symm _ _)).mp distinguished)
            (untied.perm (perm.filter _)) madeOthers
          simp [made] at back

end Shown

section Contexts

def Ranked.through (double : S → Float) (r : Ranked S) : Ranked Float :=
  ⟨{ id := r.hit.id, score := r.hit.score.map double, metadata? := r.hit.metadata? },
    double r.adjusted⟩

/-- The context of a goal, found by scores of some kind that are shown as doubles. -/
def contextThrough [Add S] [Sub S] [OfNat S 0] [OfScientific S] [LT S] [DecidableLT S]
    {m : Type → Type} [Monad m] (double : S → Float)
    (search : Query → m (Except Failure (List (Hit S)))) (minSimilarity : S)
    (topK contentChars : Int) (nspace prompt kind : String) : m RelevantContext := do
  let ranked ← findRanked search minSimilarity topK nspace prompt kind
  return contextOf contentChars (ranked.map (Ranked.through double))

theorem findContext_eq {m : Type → Type} [Monad m]
    (search : Query → m (Except Failure (List (Hit Float)))) (settings : RetrievalSettings)
    (nspace prompt kind : String) (limit : Option Int) :
    findContext search settings nspace prompt kind limit =
      contextThrough id search settings.minSimilarity (wantedFiles settings limit)
        settings.contentChars nspace prompt kind := by
  have same : Ranked.through id = id := by
    funext r
    simp [Ranked.through]
  simp [findContext, contextThrough, same]

/-- Enough hits give one context in every order, if those of one path have different scores and the best
ones of different paths have different adjusted scores. -/
theorem contextThrough_perm {σ : Type}
    {search other : Query → StateM σ (Except Failure (List (Hit Rat)))} {double : Rat → Float}
    {minSimilarity : Rat} {topK contentChars : Int} {nspace prompt kind : String}
    {world later otherWorld otherLater : σ} {hits others : List (Hit Rat)}
    (enough : 5 ≤ hits.length) (perm : hits.Perm others)
    (distinguished : hits.Pairwise Distinguished)
    (untied : Untied prompt kind (hits.filter (suits minSimilarity (isTechnical prompt kind))))
    (answered : (search (Query.ofFiles nspace (expand prompt kind) (topK * 2))).run world =
      (.ok hits, later))
    (answeredOther : (other (Query.ofFiles nspace (expand prompt kind) (topK * 2))).run otherWorld =
      (.ok others, otherLater)) :
    ((contextThrough double search minSimilarity topK contentChars nspace prompt kind).run world).1 =
      ((contextThrough double other minSimilarity topK contentChars nspace prompt kind).run
        otherWorld).1 ∧
    ∀ (search : Query → StateM σ (Except Failure (List (Hit Float)))) settings nspace prompt kind
        limit, findContext search settings nspace prompt kind limit =
      contextThrough id search settings.minSimilarity (wantedFiles settings limit)
        settings.contentChars nspace prompt kind := by
  have ran {given : Query → StateM σ (Except Failure (List (Hit Rat)))} {before after : σ}
      {answer : List (Hit Rat)} (plenty : 5 ≤ answer.length)
      (ok : (given (Query.ofFiles nspace (expand prompt kind) (topK * 2))).run before =
        (.ok answer, after)) :
      ((contextThrough double given minSimilarity topK contentChars nspace prompt kind).run before).1 =
        contextOf contentChars
          ((shown minSimilarity topK prompt kind answer).map (Ranked.through double)) := by
    have never : answer.length < 5 →
        (given (Query.ofFiles nspace prompt (topK * 2))).run after = (.ok [], after) :=
      fun few => absurd few (not_lt.mpr plenty)
    have found := findRanked_run minSimilarity ok never
    rw [joined, if_neg (not_lt.mpr plenty), List.append_nil] at found
    rw [← found]
    rfl
  refine ⟨?_, fun search settings nspace prompt kind limit => findContext_eq _ _ _ _ _ _⟩
  rw [ran enough answered, ran (perm.length_eq ▸ enough) answeredOther,
    shown_perm perm distinguished untied]

def fivePages : List (Hit Rat) :=
  [pageHit "r1" "src/a.ts" (some (7 / 10)), pageHit "r2" "src/a.ts" (some (9 / 10)),
    pageHit "r3" "src/b.ts" (some (4 / 5)), pageHit "r4" "docs/login.md" (some (3 / 5)),
    pageHit "r5" "package.json" (some (17 / 20))]

def quotient (score : Rat) : Float := Float.ofInt score.num / Float.ofNat score.den

def goalContext (hits : List (Hit Rat)) : RelevantContext :=
  ((contextThrough quotient (always hits) (1 / 5) 10 2000 "acme-shop-main" "Improve the login form"
    "improvement").run ()).1

theorem contextThrough_perm_fivePages : goalContext fivePages = goalContext fivePages.reverse := by
  have distinguished : fivePages.Pairwise Distinguished := by
    decide +kernel
  have adjusted : ∀ a ∈ fivePages, ∀ b ∈ fivePages, a.path ≠ b.path →
      (rerank a "Improve the login form" (isTechnical "Improve the login form" "improvement")).toOption ≠
        (rerank b "Improve the login form"
          (isTechnical "Improve the login form" "improvement")).toOption := by
    decide +kernel
  have untied : Untied "Improve the login form" "improvement" (fivePages.filter
      (suits (1 / 5) (isTechnical "Improve the login form" "improvement"))) := by
    intro a b highest highestToo path score first second
    refine adjusted a (List.mem_of_mem_filter highest.1) b (List.mem_of_mem_filter highestToo.1) path ?_
    rw [first, second]
  have answered (hits : List (Hit Rat)) : (always hits (Query.ofFiles "acme-shop-main"
      (expand "Improve the login form" "improvement") (10 * 2))).run () = (.ok hits, ()) := rfl
  exact (contextThrough_perm (by decide) (List.reverse_perm _).symm distinguished untied (answered _)
    (answered _)).1

end Contexts

end Groundwork.Retrieval
