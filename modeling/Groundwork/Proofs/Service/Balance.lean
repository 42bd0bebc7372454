import Groundwork.Proofs.Graph.Imports
import Groundwork.Proofs.Repository.Walk
import Groundwork.Proofs.Service.Descriptions

/-!
The figures of a repository that has been written into the store. Each file that needs a summary is asked
for once, and what comes of it is found again at this file and at no other. So the figures of the requests,
of the files and of their issues agree.
-/

namespace Groundwork

open Summary (Attempt requestsFor applyTo)

theorem EnhancedStats.sum_countGrades (grades : List Grade) :
    ((countGrades grades).map (·.2)).sum = grades.length := by
  have total : grades.count .critical + (grades.count .high + (grades.count .medium +
      grades.count .low)) = grades.length := by
    induction grades with
    | nil => rfl
    | cons grade rest ih =>
        rw [List.length_cons, ← ih]
        cases grade <;> simp <;> omega
  exact total

theorem FileRecord.enrich_ruled (f : FileRecord) (other : f.enrich.needsSummary ≠ some true) :
    f.enrich.summarySource = some .ruleBased := by
  rw [enrich, enrichWith] at other ⊢
  simpa using other

structure Balanced (stats : EnhancedStats) (graph : DependencyGraph) (files : List FileRecord) :
    Prop where
  asked : stats.needingSummary = stats.generated + stats.failed
  generated : files.countP (·.summarySource == some .generated) = stats.generated
  decided : ∀ f ∈ files, f.summarySource = some .generated ∨ f.summarySource = some .ruleBased
  priorities : (stats.priorities.map (·.2)).sum = files.length
  nodes : graph.nodes.length = files.length
  severities : (stats.severities.map (·.2)).sum = stats.totalIssues
  issues : (files.map (·.issueList.length)).sum = stats.totalIssues

namespace Summary

variable {files : List FileRecord} {attempts : List Attempt}

theorem mem_requestsFor {request : SummaryRequest} (member : request ∈ requestsFor files) :
    request.record ∈ files ∧ request.path = request.record.path := by
  obtain ⟨f, among, rfl⟩ := List.mem_map.mp member
  exact ⟨List.mem_of_mem_filter among, rfl⟩

theorem asked_records (requests : attempts.map (·.request) = requestsFor files) :
    attempts.map (·.request.record) = files.filter (·.needsSummary == some true) := by
  have records := congrArg (List.map SummaryRequest.record) requests
  rw [requestsFor, List.map_map, List.map_map] at records
  exact records.trans (List.map_id _)

theorem asked_path (requests : attempts.map (·.request) = requestsFor files) {a : Attempt}
    (member : a ∈ attempts) : a.request.path = a.request.record.path :=
  (mem_requestsFor (requests ▸ List.mem_map_of_mem member)).2

theorem applyTo_needsSummary (results : List SummaryResult) (f : FileRecord) :
    (applyTo results f).needsSummary = f.needsSummary := by
  rw [applyTo]
  split
  · rfl
  · split <;> rfl

theorem applied_generated_iff (distinct : (files.map (·.path)).Nodup)
    (requests : attempts.map (·.request) = requestsFor files) {a : Attempt} (member : a ∈ attempts) :
    (applyTo (attempts.map (·.result)) a.request.record).summarySource = some .generated ↔
      a.result.generated = true := by
  have paths : attempts.map (·.request.record.path) =
      (files.filter (·.needsSummary == some true)).map (·.path) := by
    rw [← asked_records requests, List.map_map]
    rfl
  have once : (attempts.map (·.request.record.path)).Nodup := by
    rw [paths]
    exact distinct.sublist (List.filter_sublist.map _)
  obtain ⟨other, among, path, text, failure⟩ :=
    exists_applied ⟨a, member, asked_path requests member⟩
  rw [asked_path requests among] at path
  obtain rfl : other = a := List.inj_on_of_nodup_map once among member path
  cases outcome : other.outcome with
  | ok t =>
      rw [text t outcome, Attempt.result, outcome]
      simp
  | error e =>
      rw [failure e outcome, Attempt.result, outcome]
      simp

theorem applied_decided (requests : attempts.map (·.request) = requestsFor files) {f : FileRecord}
    (member : f ∈ files) (ruled : f.needsSummary ≠ some true → f.summarySource = some .ruleBased) :
    (applyTo (attempts.map (·.result)) f).summarySource = some .generated ∨
      (applyTo (attempts.map (·.result)) f).summarySource = some .ruleBased := by
  by_cases asked : ∃ a ∈ attempts, a.request.path = f.path
  · obtain ⟨a, _, _, text, failure⟩ := exists_applied asked
    cases outcome : a.outcome with
    | ok t => exact Or.inl (by rw [text t outcome])
    | error e => exact Or.inr (by rw [failure e outcome])
  · rw [applyTo_other fun a among same => asked ⟨a, among, same⟩]
    refine Or.inr (ruled fun needs => asked ?_)
    have among : f ∈ attempts.map (·.request.record) := by
      rw [asked_records requests]
      exact List.mem_filter.mpr ⟨member, by simp [needs]⟩
    obtain ⟨a, tried, rfl⟩ := List.mem_map.mp among
    exact ⟨a, tried, asked_path requests tried⟩

theorem countP_needing (requests : attempts.map (·.request) = requestsFor files) :
    (apply files (attempts.map (·.result))).countP (·.needsSummary == some true) =
      (attempts.map (·.result)).length := by
  have unchanged : (apply files (attempts.map (·.result))).countP (·.needsSummary == some true) =
      files.countP (·.needsSummary == some true) := by
    rw [apply, List.countP_map]
    apply List.countP_congr
    intro f _
    rw [Function.comp_apply, applyTo_needsSummary]
  rw [unchanged, List.countP_eq_length_filter, ← asked_records requests, List.length_map,
    List.length_map]

theorem countP_generated (distinct : (files.map (·.path)).Nodup)
    (requests : attempts.map (·.request) = requestsFor files)
    (ruled : ∀ f ∈ files, f.needsSummary ≠ some true → f.summarySource = some .ruleBased) :
    (apply files (attempts.map (·.result))).countP (·.summarySource == some .generated) =
      (attempts.map (·.result)).countP (·.generated) := by
  have needed : ∀ f ∈ files,
      (applyTo (attempts.map (·.result)) f).summarySource = some .generated →
        f.needsSummary = some true := by
    intro f member isGenerated
    by_contra other
    have untouched : ∀ a ∈ attempts, a.request.path ≠ f.path := by
      intro a tried same
      have asked : a.request.record ∈ files.filter (·.needsSummary == some true) := by
        rw [← asked_records requests]
        exact List.mem_map_of_mem tried
      obtain ⟨isFile, needs⟩ := List.mem_filter.mp asked
      rw [asked_path requests tried] at same
      obtain rfl := List.inj_on_of_nodup_map distinct isFile member same
      exact other (beq_iff_eq.mp needs)
    rw [applyTo_other untouched, ruled f member other] at isGenerated
    cases isGenerated
  calc (apply files (attempts.map (·.result))).countP (·.summarySource == some .generated)
      = files.countP fun f =>
          (applyTo (attempts.map (·.result)) f).summarySource == some .generated &&
            f.needsSummary == some true := by
        rw [apply, List.countP_map]
        apply List.countP_congr
        intro f member
        simpa using needed f member
    _ = (attempts.map (·.request.record)).countP fun f =>
          (applyTo (attempts.map (·.result)) f).summarySource == some .generated := by
        rw [asked_records requests, List.countP_filter]
    _ = (attempts.map (·.result)).countP (·.generated) := by
        rw [List.countP_map, List.countP_map]
        apply List.countP_congr
        intro a member
        simpa using applied_generated_iff distinct requests member

end Summary

namespace EnhancedStats

variable {files : List FileRecord} {attempts : List Attempt}

theorem balanced (distinct : (files.map (·.path)).Nodup)
    (requests : attempts.map (·.request) = requestsFor (files.map (·.enrich))) :
    Balanced (EnhancedStats.of (Summary.apply (files.map (·.enrich)) (attempts.map (·.result)))
        (attempts.map (·.result)))
      (DependencyGraph.ofRecords (Summary.apply (files.map (·.enrich)) (attempts.map (·.result))))
      (Summary.apply (files.map (·.enrich)) (attempts.map (·.result))) := by
  have ruled : ∀ f ∈ files.map (·.enrich), f.needsSummary ≠ some true →
      f.summarySource = some .ruleBased := by
    intro f member other
    obtain ⟨r, _, rfl⟩ := List.mem_map.mp member
    exact r.enrich_ruled other
  have paths : (files.map (·.enrich)).map (·.path) = files.map (·.path) := by
    rw [List.map_map]
    rfl
  rw [← paths] at distinct
  exact {
    asked := by
      rw [of, Summary.countP_needing requests, List.length_eq_countP_add_countP (·.generated)]
      simp only [Bool.not_eq_true, Bool.decide_eq_false]
    generated := Summary.countP_generated distinct requests ruled
    decided := by
      intro f member
      obtain ⟨g, among, rfl⟩ := List.mem_map.mp member
      exact Summary.applied_decided requests among (ruled g among)
    priorities := by rw [of, sum_countGrades, List.length_map]
    nodes := by rw [← List.length_map, DependencyGraph.ids_nodes, List.length_map]
    severities := sum_countGrades _
    issues := by
      rw [of, severitiesOf, List.length_flatMap]
      simp }

end EnhancedStats

namespace Service

variable {σ : Type} {o : Outside (StateM σ)} {c : Configuration} {payload : Json} {r : IndexRequest}
  {s s' : Store} {x : IndexResult}

/-- The figures of a repository that has just been written balance, for any answers of the provider and
any failures of it: each file that needs a summary has one of its own that has come or failed, no file is
left waiting, and every file and every issue is counted once. Names in one folder differ. -/
theorem index_balanced (accepted : Request.validate Request.index payload = .ok r)
    (ran : Ran (index c (o.backend c) payload) s (.ok x) s') (fresh : x.cached = false)
    (enabled : c.summaries.enabled = true)
    (proper : ∀ t t' checkout,
      Ran ((o.backend c).fetcher.fetch r.repoUrl r.branch) t (.ok checkout) t' → checkout.tree.Proper) :
    ∃ a attempts t, Surveyed (o.backend c) r.repoUrl r.branch t a ∧
      Answered c.summaries (o.backend c) (a.files.map (·.enrich)) attempts ∧
      ∃ stats, x.enhanced = some stats ∧
        stats = EnhancedStats.of (completed a (attempts.map (·.result))).files
          (attempts.map (·.result)) ∧
        Balanced stats x.graph (completed a (attempts.map (·.result))).files ∧
        (completed a (attempts.map (·.result))).files.length = x.repository.totalFiles := by
  obtain ⟨inner, indexing, same⟩ := index_ran (Outside.backend_quiet o c) accepted ran
  obtain rfl := hiddenUnlessRequest_ok same.symm
  cases indexing with
  | cached _ _ _ answer =>
      obtain rfl := Except.ok.inj answer
      simp [heldAnswer] at fresh
  | @written _ counted _ a summaries _ written _ _ _ surveyed rowsFor _ answer =>
      cases written with
      | error failure => simp [Except.map] at answer
      | ok done =>
          obtain rfl := Except.ok.inj answer
          obtain ⟨_, _, summarized, _⟩ := rowsFor
          obtain ⟨attempts, answered, rfl⟩ := summarize_answered summarized
          have ⟨checkout, fetched, isAnalysis⟩ := surveyed
          have distinct : (a.files.map (·.path)).Nodup := by
            rw [isAnalysis]
            exact Analysis.ofTree_paths (proper _ _ _ fetched) _ _ _
          have requests := answered.requests
          rw [if_pos enabled] at requests
          refine ⟨a, attempts, counted, surveyed, answered, _, rfl, rfl,
            EnhancedStats.balanced distinct requests, ?_⟩
          rw [completed, Summary.apply, List.length_map, List.length_map, writtenAnswer, isAnalysis]
          rfl

theorem loginTree_proper : loginTree.Proper := by
  have file : FileTree.Proper (.file { bytes := ⟨#[255]⟩ }) := .file _
  have single {name : String} {tree : FileTree} (plain : '/' ∉ name.toList) (inner : tree.Proper) :
      FileTree.Proper (.folder [(name, tree)]) :=
    .folder (List.nodup_singleton _) (by simpa using plain) (by simpa using inner)
  exact single (by decide) (single (by decide) (single (by decide) file))

theorem index_balanced_login : ∃ x s', Ran loginIndex {} (.ok x) s' ∧ x.cached = false ∧
    ∃ stats, x.enhanced = some stats ∧ stats.needingSummary = 1 ∧ stats.generated = 1 ∧
      stats.failed = 0 ∧ Balanced stats x.graph (completed loginAnalysis loginResults).files := by
  have accepted : Request.validate Request.index
      (.obj [("repo_url", .str "https://github.com/acme/shop")]) =
        .ok ⟨"https://github.com/acme/shop", "main"⟩ := rfl
  have fetches (t t' : Store) (checkout : Checkout)
      (fetched : Ran (loginBackend.fetcher.fetch "https://github.com/acme/shop" "main") t
        (.ok checkout) t') : checkout = ⟨"repo_0", loginTree⟩ := by
    obtain ⟨world, later, same⟩ := fetched
    exact (Except.ok.inj (congrArg (·.1.1) same)).symm
  obtain ⟨x, s', ran, fresh⟩ := loginIndex_ran
  obtain ⟨a, attempts, t, ⟨checkout, fetched, analysed⟩, answered, stats, enhanced, figures, balanced, _⟩ :=
    index_balanced accepted ran fresh rfl fun t t' checkout fetched =>
      fetches t t' checkout fetched ▸ loginTree_proper
  obtain rfl := fetches _ _ _ fetched
  obtain rfl : a = loginAnalysis := analysed
  rw [login_results answered] at figures balanced
  have generated : stats.generated = 1 := by rw [figures]; rfl
  have failed : stats.failed = 0 := by rw [figures]; rfl
  exact ⟨x, s', ran, fresh, stats, enhanced, by rw [balanced.asked, generated, failed], generated,
    failed, balanced⟩

end Service

end Groundwork
