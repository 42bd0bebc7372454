import Groundwork.Proofs.Planning.Generated
import Groundwork.Proofs.Text.Distinct

/-!
The texts of phases by rule. Titles and descriptions are of moderate length whatever the goal is. Only
the reasoning of the first phase may repeat the goal, so that one can be as long as the goal makes it.
-/

namespace Groundwork

/-- Everything about a phase is as a request for a plan wants it, apart from how long its reasoning may
be. -/
structure Phase.Presentable (p : Phase) : Prop where
  id : 1 ≤ p.id.toList.length
  title : 3 ≤ p.title.toList.length ∧ p.title.toList.length ≤ 200
  description : 10 ≤ p.description.toList.length ∧ p.description.toList.length ≤ 2000
  complexity : ∃ level ∈ Planning.levels, p.complexity = .str level
  priority : ∃ level ∈ Planning.levels, p.priority = .str level
  category : ∃ kind ∈ Planning.categories, p.category = .str kind
  reasoning : 10 ≤ p.reasoning.toList.length

structure Phase.Brief (p : Phase) : Prop extends Phase.Presentable p where
  brief : p.reasoning.toList.length ≤ 1000

theorem Phase.Presentable.withDependencies {p : Phase} (presentable : p.Presentable)
    (ids : List String) : { p with dependencies := ids }.Presentable := by
  obtain ⟨id, title, description, complexity, priority, category, reasoning⟩ := presentable
  exact ⟨id, title, description, complexity, priority, category, reasoning⟩

theorem Phase.Brief.withDependencies {p : Phase} (brief : p.Brief) (ids : List String) :
    { p with dependencies := ids }.Brief :=
  ⟨brief.toPresentable.withDependencies ids, brief.brief⟩

namespace Planning

variable {c : RelevantContext} {a : PromptAnalysis} {prompt : String} {phases : List Phase}

section Texts

/-! A text that is written out is the text of its characters, and these are quickly counted. -/

theorem literal_le {cs : List Char} {n : Nat} (few : cs.length ≤ n) :
    (String.ofList cs).toList.length ≤ n := by
  rwa [String.toList_ofList]

theorem le_literal {cs : List Char} {n : Nat} (many : n ≤ cs.length) :
    n ≤ (String.ofList cs).toList.length := by
  rwa [String.toList_ofList]

theorem le_append {s : String} {n : Nat} (many : n ≤ s.toList.length) (t : String) :
    n ≤ (s ++ t).toList.length := by
  rw [String.toList_append, List.length_append]
  exact Nat.le_add_right_of_le many

theorem le_around {before : List Char} {focus after : String} {n : Nat} (many : n ≤ before.length) :
    n ≤ (toString (String.ofList before) ++ toString focus ++ toString after).toList.length :=
  le_append (le_append (le_literal many) _) _

theorem id_length (position : Nat) : 1 ≤ (phaseId position).toList.length :=
  le_append (le_literal (by decide)) _

theorem sentence_length {before after : List Char} {focus : String} (short : focus.toList.length ≤ 16)
    (few : before.length + after.length ≤ 184) :
    (toString (String.ofList before) ++ toString focus ++ toString (String.ofList after)).toList.length ≤
      200 := by
  have length : (toString (String.ofList before) ++ toString focus ++
      toString (String.ofList after)).toList.length =
        before.length + focus.toList.length + after.length := by
    simp only [toString, String.toList_append, List.length_append, String.toList_ofList]
  omega

theorem titleOf_bounds {s : String} (many : 3 ≤ s.toList.length) :
    3 ≤ (titleOf s).toList.length ∧ (titleOf s).toList.length ≤ 200 := by
  have length : (titleOf s).toList.length = min 60 s.toList.length := by simp [titleOf, Text.clip]
  omega

theorem bullets_bounds {a b c d : String} (first : a.toList.length ≤ 200)
    (second : b.toList.length ≤ 200) (third : c.toList.length ≤ 200) (last : d.toList.length ≤ 200) :
    10 ≤ (bullets [a, b, c, d]).toList.length ∧ (bullets [a, b, c, d]).toList.length ≤ 2000 := by
  have length : (bullets [a, b, c, d]).toList.length =
      11 + a.toList.length + b.toList.length + c.toList.length + d.toList.length := by
    simp [bullets, Text.join]
    omega
  omega

theorem plainBullets_bounds {a b c d : List Char} (short : a.length ≤ 200 ∧ b.length ≤ 200 ∧
    c.length ≤ 200 ∧ d.length ≤ 200) :
    10 ≤ (bullets [.ofList a, .ofList b, .ofList c, .ofList d]).toList.length ∧
      (bullets [.ofList a, .ofList b, .ofList c, .ofList d]).toList.length ≤ 2000 :=
  bullets_bounds (literal_le short.1) (literal_le short.2.1) (literal_le short.2.2.1)
    (literal_le short.2.2.2)

theorem focusBullets_bounds {before after b c d : List Char} {focus : String}
    (moderate : focus.toList.length ≤ 16) (short : before.length + after.length ≤ 184 ∧
      b.length ≤ 200 ∧ c.length ≤ 200 ∧ d.length ≤ 200) :
    10 ≤ (bullets [toString (String.ofList before) ++ toString focus ++
        toString (String.ofList after), .ofList b, .ofList c, .ofList d]).toList.length ∧
      (bullets [toString (String.ofList before) ++ toString focus ++
        toString (String.ofList after), .ofList b, .ofList c, .ofList d]).toList.length ≤ 2000 :=
  bullets_bounds (sentence_length moderate short.1) (literal_le short.2.1) (literal_le short.2.2.1)
    (literal_le short.2.2.2)

end Texts

section Analysis

theorem focusOf_mem (a : PromptAnalysis) : focusOf a ∈ "core" :: a.areas := by
  unfold focusOf
  cases found : a.areas.find? fun area => !generalWords.contains area with
  | none => exact List.mem_cons_self
  | some area => exact List.mem_cons_of_mem _ (List.mem_of_find?_eq_some found)

theorem areasOf_subset (prompt : String) {keywords : List String} (known : keywords ⊆ knownKeywords) :
    areasOf prompt keywords ⊆ knownKeywords ++ areaRules.map (·.1) := by
  intro area member
  have all := Text.mem_distinct.mp (List.mem_of_mem_take member)
  rw [List.mem_append] at all ⊢
  rcases all with keyword | named
  · exact Or.inl (known keyword)
  · obtain ⟨rule, chosen, rfl⟩ := List.mem_map.mp named
    exact Or.inr (List.mem_map_of_mem (List.mem_of_mem_filter chosen))

theorem vocabulary_length :
    ∀ area ∈ "core" :: (knownKeywords ++ areaRules.map (·.1)), area.toList.length ≤ 16 := by
  decide

theorem focusOf_length (prompt : String) :
    (focusOf (analyzePrompt prompt)).toList.length ≤ 16 := by
  have areas : (analyzePrompt prompt).areas ⊆ knownKeywords ++ areaRules.map (·.1) := by
    simp only [analyzePrompt]
    exact areasOf_subset _ List.filter_sublist.subset
  have member := focusOf_mem (analyzePrompt prompt)
  exact vocabulary_length _ (List.cons_subset_cons _ areas member)

def kinds : List String := ["specific", "feature", "debug", "refactor", "improvement"]

theorem analyzePrompt_kind (prompt : String) : (analyzePrompt prompt).kind ∈ kinds := by
  have ruled : ∀ rule ∈ kindRules, rule.1 ∈ kinds := by decide
  simp only [analyzePrompt, kindOf]
  split
  · rename_i found
    exact ruled _ (List.mem_of_find?_eq_some found)
  · split <;> decide

end Analysis

section Templates

/-! The first phase gives the goal as its reason, the others give reasons of their own. -/

def Repeats (reason : String) (phases : List Phase) : Prop :=
  ∃ first rest, phases = first :: rest ∧ first.Presentable ∧ first.reasoning = reason ∧
    ∀ p ∈ rest, p.Brief

section Steps

variable {position : Nat} {title description reason : String} {files ids : List String}
  {level rank kind : String} (titled : 3 ≤ title.toList.length) (isLevel : level ∈ levels)
  (isRank : rank ∈ levels) (isKind : kind ∈ categories)

include titled isLevel isRank isKind

theorem presentable_of_texts
    (described : 10 ≤ description.toList.length ∧ description.toList.length ≤ 2000)
    (reasoned : 10 ≤ reason.toList.length) :
    Phase.Presentable ⟨phaseId position, titleOf title, description, files, ids, .str level,
      .str rank, .str kind, reason⟩ :=
  ⟨id_length position, titleOf_bounds titled, described, ⟨level, isLevel, rfl⟩, ⟨rank, isRank, rfl⟩,
    ⟨kind, isKind, rfl⟩, reasoned⟩

theorem brief_of_texts
    (described : 10 ≤ description.toList.length ∧ description.toList.length ≤ 2000) {cs : List Char}
    (reasoned : 10 ≤ cs.length ∧ cs.length ≤ 1000) :
    Phase.Brief ⟨phaseId position, titleOf title, description, files, ids, .str level, .str rank,
      .str kind, .ofList cs⟩ :=
  ⟨presentable_of_texts titled isLevel isRank isKind described (le_literal reasoned.1),
    literal_le reasoned.2⟩

end Steps

theorem brief_optional {q : Phase} (without : Bool) (brief : q.Brief) :
    ∀ p ∈ if without then [] else [q], p.Brief := by
  cases without with
  | false => simpa using brief
  | true => simp

variable (short : (focusOf a).toList.length ≤ 16) (valid : a.complexity ∈ levels)

include short valid

theorem debugPhases_repeats :
    Repeats ("Directly resolves the reported problem: " ++ prompt) (debugPhases prompt c a) := by
  unfold debugPhases
  extract_lets focus scope errorFiles fix harden begun cover
  have fixFits : fix.Presentable :=
    presentable_of_texts (le_around (by decide)) valid (by decide) (by decide)
      (focusBullets_bounds short (by decide)) (le_append (le_literal (by decide)) _)
  have hardenFits : harden.Brief :=
    brief_of_texts (le_around (by decide)) (by decide) (by decide) (by decide)
      (plainBullets_bounds (by decide)) (by decide)
  have coverFits : cover.Brief :=
    brief_of_texts (le_around (by decide)) (by decide) (by decide) (by decide)
      (plainBullets_bounds (by decide)) (by decide)
  refine ⟨fix, (if errorFiles.isEmpty then [] else [harden]) ++ [cover], rfl, fixFits, rfl, ?_⟩
  exact List.forall_mem_append.mpr
    ⟨brief_optional _ hardenFits, List.forall_mem_singleton.mpr coverFits⟩

theorem featurePhases_repeats :
    if matchesFor c backendTerms ≠ [] ∨ matchesFor c frontendTerms = [] then
      Repeats ("Provides the core functionality requested: " ++ prompt) (featurePhases prompt c a)
    else ∀ p ∈ featurePhases prompt c a, p.Brief := by
  unfold featurePhases
  extract_lets focus backend frontend logic begun screens built cover
  have logicFits : logic.Presentable :=
    presentable_of_texts (le_around (by decide)) valid (by decide) (by decide)
      (focusBullets_bounds short (by decide)) (le_append (le_literal (by decide)) _)
  have screensFits : screens.Brief :=
    brief_of_texts (le_around (by decide)) (by decide) (by decide) (by decide)
      (focusBullets_bounds short (by decide)) (by decide)
  have coverFits : cover.Brief :=
    brief_of_texts (le_around (by decide)) (by decide) (by decide) (by decide)
      (plainBullets_bounds (by decide)) (by decide)
  have othersFit : ∀ p ∈ (if frontend.isEmpty then [] else [screens]) ++ [cover], p.Brief :=
    List.forall_mem_append.mpr
      ⟨brief_optional _ screensFits, List.forall_mem_singleton.mpr coverFits⟩
  split
  · rename_i logical
    have begins : begun = [logic] := if_pos (by simpa using logical)
    refine ⟨logic, (if frontend.isEmpty then [] else [screens]) ++ [cover], ?_, logicFits, rfl,
      othersFit⟩
    rw [show built = begun ++ if frontend.isEmpty then [] else [screens] from rfl, begins,
      List.singleton_append, List.cons_append]
  · rename_i visual
    have begins : begun = [] := if_neg (by simpa using visual)
    rw [show built = begun ++ if frontend.isEmpty then [] else [screens] from rfl, begins,
      List.nil_append]
    exact othersFit

theorem specificPhases_repeats :
    Repeats ("Addresses the specific request: " ++ prompt) (specificPhases prompt c a) := by
  unfold specificPhases
  extract_lets focus scope
  refine ⟨_, _, rfl, ?_, rfl, List.forall_mem_singleton.mpr ?_⟩
  · exact presentable_of_texts (le_around (by decide)) valid (by decide) (by decide)
      (focusBullets_bounds short (by decide)) (le_append (le_literal (by decide)) _)
  · exact brief_of_texts (le_around (by decide)) (by decide) (by decide) (by decide)
      (plainBullets_bounds (by decide)) (by decide)

omit short in
theorem improvementPhases_repeats :
    Repeats ("Improves the area named in the request: " ++ prompt) (improvementPhases prompt c a) := by
  unfold improvementPhases
  extract_lets focus flagged optimize resolve
  have optimizeFits : optimize.Presentable :=
    presentable_of_texts (le_around (by decide)) valid (by decide) (by decide)
      (plainBullets_bounds (by decide)) (le_append (le_literal (by decide)) _)
  have resolveFits : resolve.Brief :=
    brief_of_texts (le_append (le_literal (by decide)) _) (by decide) (by decide) (by decide)
      (plainBullets_bounds (by decide)) (by decide)
  exact ⟨optimize, _, rfl, optimizeFits, rfl, brief_optional _ resolveFits⟩

omit short valid in
theorem refactorPhases_repeats (made : refactorPhases prompt c a = .ok phases) :
    Repeats ("Targets the highest-complexity code behind: " ++ prompt) phases := by
  obtain ⟨paths, sorted⟩ := exists_byComplexity made
  unfold refactorPhases at made
  rw [sorted] at made
  extract_lets focus shared extract at made
  have level : (if a.complexity == "high" then "high" else "medium") ∈ levels := by
    split <;> decide
  have extractFits : extract.Brief :=
    brief_of_texts (le_around (by decide)) (by decide) (by decide) (by decide)
      (plainBullets_bounds (by decide)) (by decide)
  cases made
  refine ⟨_, _, rfl, ?_, rfl, brief_optional _ extractFits⟩
  exact presentable_of_texts (le_around (by decide)) level (by decide) (by decide)
    (plainBullets_bounds (by decide)) (le_append (le_literal (by decide)) _)

end Templates

section Goals

def opening : String → String
  | "specific" => "Addresses the specific request: "
  | "feature" => "Provides the core functionality requested: "
  | "debug" => "Directly resolves the reported problem: "
  | "refactor" => "Targets the highest-complexity code behind: "
  | "improvement" => "Improves the area named in the request: "
  | _ => ""

theorem opening_length : ∀ kind ∈ kinds, 1 ≤ (opening kind).length := by
  decide +kernel

def RepeatsGoal (c : RelevantContext) (a : PromptAnalysis) : Prop :=
  a.kind = "feature" → matchesFor c backendTerms ≠ [] ∨ matchesFor c frontendTerms = []

def Reasoned (prompt : String) (c : RelevantContext) (a : PromptAnalysis) (phases : List Phase) : Prop :=
  (RepeatsGoal c a → Repeats (opening a.kind ++ prompt) phases) ∧
    (¬ RepeatsGoal c a → ∀ p ∈ phases, p.Brief)

theorem reasoned_of_repeats (other : a.kind ≠ "feature")
    (repeats : Repeats (opening a.kind ++ prompt) phases) : Reasoned prompt c a phases :=
  ⟨fun _ => repeats, fun silent => absurd (fun feature => absurd feature other) silent⟩

theorem phasesByRule_reasoned (short : (focusOf a).toList.length ≤ 16)
    (valid : a.complexity ∈ levels) (known : a.kind ∈ kinds)
    (made : phasesByRule prompt c a = .ok phases) : Reasoned prompt c a phases := by
  unfold phasesByRule at made
  split at made
  · rename_i kind
    cases made
    refine reasoned_of_repeats (by simp [kind]) ?_
    rw [kind]
    exact specificPhases_repeats short valid
  · rename_i kind
    cases made
    have repeats := @featurePhases_repeats c a prompt short valid
    have same : RepeatsGoal c a ↔ matchesFor c backendTerms ≠ [] ∨ matchesFor c frontendTerms = [] :=
      ⟨fun goal => goal kind, fun logical _ => logical⟩
    rw [Reasoned, same, kind]
    constructor
    · intro logical
      rw [if_pos logical] at repeats
      exact repeats
    · intro visual
      rwa [if_neg visual] at repeats
  · rename_i kind
    cases made
    refine reasoned_of_repeats (by simp [kind]) ?_
    rw [kind]
    exact debugPhases_repeats short valid
  · rename_i kind
    refine reasoned_of_repeats (by simp [kind]) ?_
    rw [kind]
    exact refactorPhases_repeats made
  · rename_i kind
    cases made
    refine reasoned_of_repeats (by simp [kind]) ?_
    rw [kind]
    exact improvementPhases_repeats valid
  · simp_all [kinds]

theorem Reasoned.capPhases {limit : Int} (bound : 1 ≤ limit) (reasoned : Reasoned prompt c a phases) :
    Reasoned prompt c a (capPhases limit phases) := by
  constructor
  · intro goal
    obtain ⟨first, rest, rfl, presentable, reason, others⟩ := reasoned.1 goal
    obtain ⟨more, rfl⟩ : ∃ more : Nat, limit = more + 1 := ⟨(limit - 1).toNat, by omega⟩
    refine ⟨_, _, rfl, presentable.withDependencies _, reason, ?_⟩
    rintro p member
    obtain ⟨q, kept, rfl⟩ := List.mem_map.mp member
    exact (others q (List.mem_of_mem_take kept)).withDependencies _
  · intro silent p member
    obtain ⟨q, kept, rfl⟩ := List.mem_map.mp member
    exact (reasoned.2 silent q ((firstOf_sublist limit phases).subset kept)).withDependencies _

theorem generatePhases_byRule {m : Type → Type} [Monad m] [LawfulMonad m] {settings : PlannerSettings}
    {strategy : Option String} (byRule : strategyName settings strategy ≠ "llm") (ask : Option (Ask m))
    (prompt : String) (c : RelevantContext) (a : PromptAnalysis) :
    generatePhases settings ask prompt c (some a) strategy =
      pure ((rulePhases prompt c a).map (capPhases (phaseLimit settings))) := by
  have chosen : (strategyName settings strategy == "llm") = false := by simpa using byRule
  simp [generatePhases, chosen]

theorem rulePhases_reasoned {settings : PlannerSettings}
    (made : (rulePhases prompt c (analyzePrompt prompt)).map (capPhases (phaseLimit settings)) =
      .ok phases) : Reasoned prompt c (analyzePrompt prompt) phases ∧ phases ≠ [] := by
  obtain ⟨uncapped, found, rfl⟩ := ok_of_map made
  have ruled : phasesByRule prompt c (analyzePrompt prompt) = .ok uncapped := rulePhases_eq_ok found
  have reasoned := phasesByRule_reasoned (focusOf_length prompt) (analyzePrompt_level prompt)
    (analyzePrompt_kind prompt) ruled
  have limit := phaseLimit_pos settings
  exact ⟨reasoned.capPhases limit, capPhases_ne_nil limit (phasesByRule_ne_nil ruled)⟩

end Goals

end Planning

end Groundwork
