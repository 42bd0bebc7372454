import Groundwork.Proofs.Request.Violations

/-!
What is declared about a request for a plan, and what its check reports. All places with something wrong are
reported together, apart from what is in a list of too many files, which is not looked at.
-/

namespace Groundwork.Request

section Declarations

def fileShape : Shape := .object [
  (["path"], true, .text 1 none),
  (["language"], false, .orNull (.text 0 none)),
  (["similarity"], true, .number 0 1)]

def phaseShape : Shape := .object [
  (["id"], true, .text 1 none),
  (["title"], true, .text 3 (some 200)),
  (["description"], true, .text 10 (some 2000)),
  (["relevantFiles", "relevant_files"], false, .list 0 none (.text 0 none)),
  (["dependencies"], false, .list 0 none (.text 0 none)),
  (["estimatedComplexity", "estimated_complexity"], true, .among Planning.levels),
  (["priority"], true, .among Planning.levels),
  (["category"], true, .among Planning.categories),
  (["reasoning"], true, .text 10 (some 1000))]

def planShape : Shape := .object [
  (["namespace"], true, .text 3 (some 100)),
  (["phase"], true, phaseShape),
  (["top_relevant_files"], true, .list 1 (some 20) fileShape)]

theorem file_follows : Follows file fileShape :=
  have path := (textBetween_follows 1 none).field ["path"]
  have language := (textBetween_follows 0 none).orNull.fieldOr ["language"] none
  have similarity := (numberBetween_follows 0 1).field ["similarity"]
  (path.both (language.both similarity)).map.object

theorem phase_follows : Follows phase phaseShape :=
  have id := (textBetween_follows 1 none).field ["id"]
  have title := (textBetween_follows 3 (some 200)).field ["title"]
  have description := (textBetween_follows 10 (some 2000)).field ["description"]
  have texts := (textBetween_follows 0 none).list
  have files := texts.fieldOr ["relevantFiles", "relevant_files"] []
  have dependencies := texts.fieldOr ["dependencies"] []
  have level := among_follows Planning.levels
  have complexity := level.field ["estimatedComplexity", "estimated_complexity"]
  have priority := level.field ["priority"]
  have category := (among_follows Planning.categories).field ["category"]
  have reasoning := (textBetween_follows 10 (some 1000)).field ["reasoning"]
  (id.both (title.both (description.both (files.both (dependencies.both
    ((complexity.both (priority.both category)).both reasoning)))))).map.object

theorem plan_follows : Follows plan planShape :=
  have nspace := (textBetween_follows 3 (some 100)).field ["namespace"]
  have phase := phase_follows.field ["phase"]
  have files := (file_follows.listBetween (Nat.le_refl 1) 20).field ["top_relevant_files"]
  (nspace.both (phase.both files)).map.object

end Declarations

/-- A request for a plan is accepted exactly if no place in it is violated. Otherwise violated places are
listed, and all of them, apart from what is in a list of files that is too long and listed as such. -/
theorem validate_plan_reports (payload : Json) :
    (∃ request, validate plan payload = .ok request) ∧ (∀ path, ¬ Violated planShape payload path) ∨
    ∃ violations : List Violation, violations ≠ [] ∧
      validate plan payload = .error (.request (violations.map (·.text))) ∧
      (∀ v ∈ violations, Violated planShape payload v.path) ∧
      ∀ path, Violated planShape payload path → (∃ v ∈ violations, v.path = path) ∨
        ∃ above step below, path = above ++ step :: below ∧
          Overfull planShape payload above ∧ ∃ v ∈ violations, v.path = above := by
  cases checked : plan payload with
  | ok request =>
      refine Or.inl ⟨⟨request, by rw [validate, checked]⟩, fun path violated => ?_⟩
      rcases plan_follows.complete violated with reported | ⟨_, _, _, _, _, reported⟩
      · exact not_reported_ok (checked ▸ reported)
      · exact not_reported_ok (checked ▸ reported)
  | error violations =>
      have listed (path : List String) :
          Reported (plan payload) path ↔ ∃ v ∈ violations, v.path = path := by
        rw [checked, reported_error]
      refine Or.inr ⟨violations, ?_, by rw [validate, checked], ?_, ?_⟩
      · rintro rfl
        exact plan_follows.speaks payload checked
      · exact fun v member => plan_follows.sound ((listed v.path).mpr ⟨v, member, rfl⟩)
      · intro path violated
        rcases plan_follows.complete violated with reported | ⟨above, step, below, rfl, more, reported⟩
        · exact Or.inl ((listed path).mp reported)
        · exact Or.inr ⟨above, step, below, rfl, more, (listed above).mp reported⟩

section Missed

def planOf (files : List Json) : Json := .obj [
  ("namespace", .str "acme-shop-main"),
  ("phase", .obj [("id", .str "phase-01"), ("title", .str "Sign in"),
    ("description", .str "Let users sign in."), ("estimatedComplexity", .str "low"),
    ("priority", .str "low"), ("category", .str "feature"),
    ("reasoning", .str "Others build on it.")]),
  ("top_relevant_files", .arr files)]

def fileAt (path : String) (similarity : Json) : Json :=
  .obj [("path", .str path), ("similarity", similarity)]

theorem leads_first {first : Json} {rest : List Json} {path : List String} {inner : Shape}
    {found : Option Json} (leads : Leads fileShape first path inner found) :
    Leads planShape (planOf (first :: rest)) ("top_relevant_files" :: "0" :: path) inner found :=
  .member (.tail _ (.tail _ (.head _))) rfl (.item (k := 0) rfl leads)

def crowded : Json := planOf (fileAt "" (.int 1) :: List.replicate 20 (fileAt "a.py" (.int 1)))

theorem validate_plan_missed :
    Violated planShape crowded ["top_relevant_files", "0", "path"] ∧
      validate plan crowded = .error (.request
        ["top_relevant_files: List should have at most 20 items after validation, not 21"]) := by
  have path : Leads planShape crowded ["top_relevant_files", "0", "path"] (.text 1 none)
      (some (.str "")) := leads_first (.member (.head _) rfl (.here _ _))
  refine ⟨⟨_, _, path, ?_⟩, rfl⟩
  rintro _ ⟨⟩ ⟨_, ⟨⟩, long, -⟩
  exact absurd long (by decide)

end Missed

end Groundwork.Request
