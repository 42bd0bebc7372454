import Groundwork.Proofs.Each
import Groundwork.Proofs.Retrieval.Selection
import Groundwork.Retrieval.Context
import Mathlib.Algebra.Order.Ring.Unbundled.Rat

/-!
What is found for a goal: the suitable hits of two searches, one for each path, the best ones first. All
of it is lost if the language of a hit that is kept is a list or an object, which cannot be looked for
among the names of languages.
-/

namespace Groundwork.Retrieval

open Text

variable {S : Type} {h : Hit S}

section Languages

def Plain (h : Hit S) : Prop :=
  ∀ value, h.metadata.lookup "language" = some value →
    (∀ items, value ≠ .arr items) ∧ ∀ members, value ≠ .obj members

theorem isScript_plain (plain : Plain h) : ∃ script, isScript h = .ok script := by
  unfold isScript
  split
  · exact ⟨_, rfl⟩
  · rename_i items found
    exact absurd rfl ((plain _ found).1 items)
  · rename_i members found
    exact absurd rfl ((plain _ found).2 members)
  · exact ⟨_, rfl⟩

theorem isScript_notPlain (notPlain : ¬ Plain h) : isScript h = .error .wrongKind := by
  unfold isScript
  split
  · rename_i found
    refine absurd (fun value same => ?_) notPlain
    rw [found] at same
    cases same
    exact ⟨by simp, by simp⟩
  · rfl
  · rfl
  · rename_i notText notList notObject
    refine absurd (fun value same => ⟨?_, ?_⟩) notPlain
    · rintro items rfl
      exact notList items same
    · rintro members rfl
      exact notObject members same

variable [Add S] [Sub S] [OfNat S 0] [OfScientific S] (prompt : String) (technical : Bool)

theorem rerank_plain (plain : Plain h) : ∃ adjusted, rerank h prompt technical = .ok adjusted := by
  obtain ⟨script, answered⟩ := isScript_plain plain
  unfold rerank
  rw [answered]
  exact ⟨_, rfl⟩

theorem rerank_notPlain (notPlain : ¬ Plain h) : rerank h prompt technical = .error .wrongKind := by
  unfold rerank
  rw [isScript_notPlain notPlain]
  rfl

theorem rank_plain (plain : Plain h) : ∃ r, rank prompt technical h = .ok r := by
  obtain ⟨adjusted, reranked⟩ := rerank_plain prompt technical plain
  rw [rank, reranked]
  exact ⟨_, rfl⟩

theorem rank_notPlain (notPlain : ¬ Plain h) : rank prompt technical h = .error .wrongKind := by
  rw [rank, rerank_notPlain prompt technical notPlain]
  rfl

variable {prompt technical}

theorem rank_ok {r : Ranked S} (ranked : rank prompt technical h = .ok r) :
    r.hit = h ∧ rerank h prompt technical = .ok r.adjusted := by
  obtain ⟨adjusted, reranked, same⟩ := bind_eq_ok_iff.mp ranked
  cases same
  exact ⟨rfl, reranked⟩

theorem ranked_hits {kept : List (Hit S)} {ranked : List (Ranked S)}
    (beside : List.Forall₂ (fun h r => rank prompt technical h = .ok r) kept ranked) :
    ranked.map (·.hit) = kept ∧ ∀ r ∈ ranked, rerank r.hit prompt technical = .ok r.adjusted := by
  induction beside with
  | nil => exact ⟨rfl, by simp⟩
  | cons first _ ih =>
      obtain ⟨rfl, reranked⟩ := rank_ok first
      obtain ⟨hits, others⟩ := ih
      exact ⟨by rw [List.map_cons, hits], List.forall_mem_cons.mpr ⟨reranked, others⟩⟩

end Languages

variable [Add S] [Sub S] [OfNat S 0] [OfScientific S] [LinearOrder S]
  {minSimilarity : S} {topK : Int} {prompt kind : String} {hits first second : List (Hit S)}

/-- What a hit has to be for a goal: it has a path, is similar enough, and if the goal is technical, it
is no documentation or its text has a technical term. -/
def Suitable (minSimilarity : S) (technical : Bool) (h : Hit S) : Prop :=
  h.path ≠ "" ∧ minSimilarity ≤ h.scoreOrZero ∧
    (technical = true → isDocumentation h.path = false ∨
      containsAny (lower h.searchable) technicalTerms = true)

instance (minSimilarity : S) (technical : Bool) (h : Hit S) :
    Decidable (Suitable minSimilarity technical h) :=
  inferInstanceAs (Decidable (_ ∧ _ ∧ _))

omit [Add S] [Sub S] [OfScientific S] in
theorem suits_eq (minSimilarity : S) (technical : Bool) (h : Hit S) :
    suits minSimilarity technical h = decide (Suitable minSimilarity technical h) := by
  rw [Bool.eq_iff_iff, decide_eq_true_eq]
  cases technical <;> simp [suits, Suitable, and_assoc]

def joined (first second : List (Hit S)) : List (Hit S) :=
  first ++ if first.length < 5 then newHits first second else []

def candidates (minSimilarity : S) (prompt kind : String) (first second : List (Hit S)) :
    List (Hit S) :=
  (joined first second).filter fun h => Suitable minSimilarity (isTechnical prompt kind) h

omit [Add S] [Sub S] [OfScientific S] in
theorem filter_suits (minSimilarity : S) (prompt kind : String) (first second : List (Hit S)) :
    (joined first second).filter (suits minSimilarity (isTechnical prompt kind)) =
      candidates minSimilarity prompt kind first second :=
  List.filter_congr fun h _ => suits_eq minSimilarity (isTechnical prompt kind) h

omit [Add S] [Sub S] [OfNat S 0] [OfScientific S] [LinearOrder S] in
theorem joined_subset (first second : List (Hit S)) : joined first second ⊆ first ++ second := by
  unfold joined
  split
  · exact List.append_subset.mpr ⟨List.subset_append_left first second,
      List.Subset.trans (newHits_subset first second) (List.subset_append_right first second)⟩
  · rw [List.append_nil]
    exact List.subset_append_left first second

/-- One hit for each path of the candidates, the best one, and the best ones first. -/
structure Selected (prompt kind : String) (among : List (Hit S)) (all : List (Ranked S)) : Prop where
  once : (all.map (·.hit.path)).Nodup
  every : ∀ path, path ∈ all.map (·.hit.path) ↔ path ∈ pathsOf among
  best : ∀ r ∈ all, FirstBest among r.hit
  adjusted : ∀ r ∈ all, rerank r.hit prompt (isTechnical prompt kind) = .ok r.adjusted
  inOrder : all.Pairwise (Precedes (pathsOf among))

theorem selected_sortRanked {among kept : List (Hit S)} {ranked : List (Ranked S)}
    (represents : Represents among kept)
    (beside : List.Forall₂ (fun h r => rank prompt (isTechnical prompt kind) h = .ok r) kept ranked) :
    Selected prompt kind among (sortRanked ranked) := by
  obtain ⟨hits, adjusted⟩ := ranked_hits beside
  have paths : ranked.map (·.hit.path) = distinct (pathsOf among) := by
    rw [← represents.paths, ← hits, pathsOf, List.map_map]
    rfl
  have perm := sortRanked_perm ranked
  have stays (r : Ranked S) (member : r ∈ sortRanked ranked) : r.hit ∈ kept := by
    rw [← hits]
    exact List.mem_map_of_mem (perm.mem_iff.mp member)
  exact {
    once := by
      rw [(perm.map _).nodup_iff, paths]
      exact distinct_nodup _
    every := by
      intro path
      rw [(perm.map _).mem_iff, paths, mem_distinct]
    best := fun r member => represents.best r.hit (stays r member)
    adjusted := fun r member => adjusted r (perm.mem_iff.mp member)
    inOrder := by
      have inOrder := distinct_pairwise (pathsOf among)
      rw [← paths, List.pairwise_map] at inOrder
      exact sortRanked_pairwise inOrder }

theorem select_plain (topK : Int) {among : List (Hit S)}
    (suitable : hits.filter (suits minSimilarity (isTechnical prompt kind)) = among)
    (scored : ∀ h ∈ among, Scored h) (plain : ∀ h, FirstBest among h → Plain h) :
    ∃ all, Selected prompt kind among all ∧
      select minSimilarity topK prompt kind hits = .ok (firstOf topK all) := by
  obtain ⟨kept, best, represents⟩ := bestByPath_represents scored
  obtain ⟨ranked, made, beside⟩ := mapM_ok fun k member =>
    rank_plain prompt (isTechnical prompt kind) (plain k (represents.best k member))
  refine ⟨sortRanked ranked, selected_sortRanked represents beside, ?_⟩
  rw [select, suitable, best]
  dsimp only [bind, Except.bind]
  rw [made]
  rfl

theorem select_notPlain (topK : Int) {among : List (Hit S)}
    (suitable : hits.filter (suits minSimilarity (isTechnical prompt kind)) = among)
    (scored : ∀ h ∈ among, Scored h) (best : FirstBest among h) (notPlain : ¬ Plain h) :
    ∃ fault, select minSimilarity topK prompt kind hits = .error fault := by
  obtain ⟨kept, made, represents⟩ := bestByPath_represents scored
  have member : h ∈ kept := by
    have path : h.path ∈ pathsOf kept := by
      rw [represents.paths, mem_distinct]
      exact mem_pathsOf.mpr ⟨h, best.mem, rfl⟩
    obtain ⟨k, there, same⟩ := mem_pathsOf.mp path
    rwa [← best.unique (represents.best k there) same]
  obtain ⟨fault, failed⟩ := mapM_error member (rank_notPlain prompt (isTechnical prompt kind) notPlain)
  refine ⟨fault, ?_⟩
  rw [select, suitable, made]
  dsimp only [bind, Except.bind]
  rw [failed]

section Searches

variable {σ : Type} {search : Query → StateM σ (Except Failure (List (Hit S)))} {nspace : String}
  {world later last : σ}

omit [LinearOrder S] in
theorem findRanked_run [LT S] [DecidableLT S] (minSimilarity : S)
    (answered : (search (Query.ofFiles nspace (expand prompt kind) (topK * 2))).run world =
      (.ok first, later))
    (answeredAgain : first.length < 5 →
      (search (Query.ofFiles nspace prompt (topK * 2))).run later = (.ok second, last)) :
    ((findRanked search minSimilarity topK nspace prompt kind).run world).1 =
      shown minSimilarity topK prompt kind (joined first second) := by
  unfold findRanked
  rw [StateT.run_bind, answered]
  change ((if 5 ≤ first.length then pure (shown minSimilarity topK prompt kind first)
    else search (Query.ofFiles nspace prompt (topK * 2)) >>= _ : StateM σ (List (Ranked S))).run
      later).1 = _
  by_cases few : first.length < 5
  · rw [if_neg (not_le.mpr few), StateT.run_bind, answeredAgain few, joined, if_pos few, ← mergeHits_eq]
    rfl
  · rw [if_pos (not_lt.mp few), joined, if_neg few, List.append_nil]
    rfl

end Searches

/-- What is found for a goal if both searches answer with hits that have scores. -/
theorem findRanked_selected {σ : Type}
    {search : Query → StateM σ (Except Failure (List (Hit Rat)))} {minSimilarity : Rat} {topK : Int}
    {nspace prompt kind : String} {world later last : σ} {first second : List (Hit Rat)}
    (wanted : 1 ≤ topK) (scored : ∀ h ∈ first ++ second, h.score.isSome)
    (answered : (search (Query.ofFiles nspace (expand prompt kind) (topK * 2))).run world =
      (.ok first, later))
    (answeredAgain : first.length < 5 →
      (search (Query.ofFiles nspace prompt (topK * 2))).run later = (.ok second, last)) :
    ((∀ h, FirstBest (candidates minSimilarity prompt kind first second) h → Plain h) →
      ∃ all, Selected prompt kind (candidates minSimilarity prompt kind first second) all ∧
        ((findRanked search minSimilarity topK nspace prompt kind).run world).1 =
          all.take topK.toNat) ∧
    ((∃ h, FirstBest (candidates minSimilarity prompt kind first second) h ∧ ¬ Plain h) →
      ((findRanked search minSimilarity topK nspace prompt kind).run world).1 = []) ∧
    (∀ (search : Query → StateM σ (Except Failure (List (Hit Float)))) settings limit,
      findContext search settings nspace prompt kind limit =
        contextOf settings.contentChars <$> findRanked search settings.minSimilarity
          (wantedFiles settings limit) nspace prompt kind) ∧
    ∀ contentChars ranked,
      (contextOf contentChars ranked).files = ranked.map (fileOf contentChars) ∧
        (contextOf contentChars ranked).paths = ranked.map (·.hit.path) ∧
          (contextOf contentChars ranked).total = ranked.length := by
  have ran := findRanked_run minSimilarity answered answeredAgain
  have suitable := filter_suits minSimilarity prompt kind first second
  have scoredAll : ∀ h ∈ candidates minSimilarity prompt kind first second, Scored h := by
    intro h member
    have among := joined_subset first second (List.mem_of_mem_filter member)
    exact scored_of_isSome (scored h among)
  refine ⟨?_, ?_, fun _ _ _ => rfl, fun _ ranked => ⟨rfl, ?_, rfl⟩⟩
  · intro plain
    obtain ⟨all, selected, made⟩ := select_plain topK suitable scoredAll plain
    refine ⟨all, selected, ?_⟩
    rw [ran, shown, made]
    exact if_pos (by omega)
  · rintro ⟨h, best, notPlain⟩
    obtain ⟨fault, failed⟩ := select_notPlain topK suitable scoredAll best notPlain
    rw [ran, shown, failed]
  · rw [RelevantContext.paths, contextOf, List.map_map]
    rfl

def canned (_ : Query) : StateM (List (List (Hit Rat))) (Except Failure (List (Hit Rat))) := do
  match ← get with
  | [] => return .ok []
  | answer :: rest =>
    set rest
    return .ok answer

def loginForm (id : String) (score : Rat) (language : Json) : Hit Rat :=
  { id
    score := some score
    metadata? := some [("type", .str "file"), ("filePath", .str "src/a.ts"), ("language", language),
      ("description", .str "A"), ("searchableText", .str "login form"), ("content", .str "C")] }

def loginHits : List (Hit Rat) :=
  [loginForm "r1" (7 / 10) (.str "typescript"), loginForm "r2" (9 / 10) .null]

theorem findRanked_selected_loginHits : ∃ all,
    Selected "Improve the login form" "improvement"
      (candidates (1 / 5) "Improve the login form" "improvement" loginHits []) all ∧
    ((findRanked canned (1 / 5) 10 "acme-shop-main" "Improve the login form" "improvement").run
      [loginHits, []]).1 = all.take 10 := by
  have answered : (canned (Query.ofFiles "acme-shop-main"
      (expand "Improve the login form" "improvement") (10 * 2))).run [loginHits, []] =
        (.ok loginHits, [[]]) := rfl
  have answeredAgain : loginHits.length < 5 → (canned (Query.ofFiles "acme-shop-main"
      "Improve the login form" (10 * 2))).run [[]] = (.ok [], []) := fun _ => rfl
  have scored : ∀ h ∈ loginHits ++ [], h.score.isSome := by
    simp [loginHits, loginForm]
  obtain ⟨selects, _⟩ := findRanked_selected (by decide) scored answered answeredAgain
  refine selects fun h best => ?_
  have member : h ∈ loginHits ++ [] := joined_subset _ _ (List.mem_of_mem_filter best.mem)
  simp only [loginHits, List.append_nil, List.mem_cons, List.not_mem_nil, or_false] at member
  rcases member with rfl | rfl <;> simp [Plain, loginForm, Hit.metadata, List.lookup_cons]

/-- The only hit, a suitable one, is lost for its language. -/
theorem loginForm_lost :
    FirstBest (candidates (1 / 5) "Improve the login form" "improvement"
        [loginForm "r1" (9 / 10) (.arr [])] []) (loginForm "r1" (9 / 10) (.arr [])) ∧
      ((findRanked canned (1 / 5) 10 "acme-shop-main" "Improve the login form" "improvement").run
        [[loginForm "r1" (9 / 10) (.arr [])], []]).1 = [] := by
  constructor
  · refine ⟨[], [], ?_, by simp, by simp⟩
    exact List.filter_cons_of_pos (by decide +kernel)
  · exact List.isEmpty_iff.mp (by decide +kernel)

end Groundwork.Retrieval
