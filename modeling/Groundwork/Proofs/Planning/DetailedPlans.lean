import Groundwork.Planning.Expansion
import Groundwork.Proofs.Completion.Fences
import Groundwork.Proofs.Each

/-!
What becomes of an answer about one phase. The plan is made exactly from an object with the two texts, and
every other answer and every failure of the provider is the same failed planning, but for an answer with a
number that is too long.
-/

namespace Groundwork.Planning

open Completion

section Answers

variable {text : String} {value : Json} {d : DetailedPlan} {failure : Failure}
  {outcome : Except Failure String}

structure Describes (text plan instruction : String) : Prop where
  shape : ∃ inner members, Unfenced text.toList inner ∧ Json.read inner = .ok (.obj members) ∧
    members.lookup "plan" = some (.str plan) ∧ members.lookup "instruction" = some (.str instruction)
  written : Text.strip plan ≠ ""

def HasLongNumber (text : String) : Prop := ∃ inner, Unfenced text.toList inner ∧ Json.LongNumber inner

theorem planOfJson_eq_ok_iff : planOfJson value = .ok d ↔ ∃ members plan instruction,
    value = .obj members ∧ members.lookup "plan" = some (.str plan) ∧
      members.lookup "instruction" = some (.str instruction) ∧ Text.strip plan ≠ "" ∧
      d = ⟨Text.strip plan, Text.clip 600 (Text.strip instruction)⟩ := by
  constructor
  · intro made
    unfold planOfJson at made
    split at made
    · rename_i members
      split at made
      · rename_i plan instruction has_plan has_instruction
        split at made
        · cases made
        · rename_i written
          cases made
          refine ⟨members, plan, instruction, rfl, has_plan, has_instruction, ?_, rfl⟩
          simpa using written
      · cases made
    · cases made
  · rintro ⟨members, plan, instruction, rfl, has_plan, has_instruction, written, rfl⟩
    simp [planOfJson, has_plan, has_instruction, written]

theorem planOfJson_error (failed : planOfJson value = .error failure) :
    failure = .planning .unusablePlan := by
  unfold planOfJson at failed
  split at failed
  · split at failed
    · split at failed
      · cases failed
        rfl
      · cases failed
    · cases failed
      rfl
  · cases failed
    rfl

theorem planOfOutcome_read (parsed : parseJson text = .ok value) :
    planOfOutcome (.ok text) = planOfJson value := by
  rw [planOfOutcome, Except.bind, parsed]

theorem planOfOutcome_unread (unread : parseJson text = .error failure) : planOfOutcome (.ok text) =
    .error (if failure.isCompletion then .planning .unusablePlan else failure) := by
  rw [planOfOutcome, Except.bind, unread]

theorem planOfOutcome_eq_ok_iff : planOfOutcome outcome = .ok d ↔ ∃ text plan instruction,
    outcome = .ok text ∧ Describes text plan instruction ∧
      d = ⟨Text.strip plan, Text.clip 600 (Text.strip instruction)⟩ := by
  constructor
  · intro made
    cases outcome with
    | error failure => cases made
    | ok text =>
        cases parsed : parseJson text with
        | error failure =>
            rw [planOfOutcome_unread parsed] at made
            cases made
        | ok answer =>
            rw [planOfOutcome_read parsed] at made
            obtain ⟨inner, unfenced, readable⟩ := parseJson_eq_ok_iff.mp parsed
            obtain ⟨members, plan, instruction, rfl, has_plan, has_instruction, written, same⟩ :=
              planOfJson_eq_ok_iff.mp made
            exact ⟨text, plan, instruction, rfl,
              ⟨⟨inner, members, unfenced, readable, has_plan, has_instruction⟩, written⟩, same⟩
  · rintro ⟨text, plan, instruction, rfl, ⟨⟨inner, members, unfenced, readable, has_plan,
      has_instruction⟩, written⟩, same⟩
    rw [planOfOutcome_read (parseJson_eq_ok_iff.mpr ⟨inner, unfenced, readable⟩)]
    exact planOfJson_eq_ok_iff.mpr ⟨members, plan, instruction, rfl, has_plan, has_instruction, written, same⟩

theorem planOfOutcome_error (provided : ∀ failure, outcome = .error failure → failure.isCompletion = true)
    (failed : planOfOutcome outcome = .error failure) : failure = .planning .unusablePlan ∨
      failure = .data .badValue ∧ ∃ text, outcome = .ok text ∧ HasLongNumber text := by
  cases outcome with
  | error reason =>
      have seen := provided reason rfl
      simp only [planOfOutcome, Except.bind, seen, if_true, Except.error.injEq] at failed
      exact Or.inl failed.symm
  | ok text =>
      cases parsed : parseJson text with
      | ok answer =>
          rw [planOfOutcome_read parsed] at failed
          exact Or.inl (planOfJson_error failed)
      | error reason =>
          rw [planOfOutcome_unread parsed] at failed
          rcases parseJson_error parsed with ⟨fault, rfl⟩ | ⟨rfl, long⟩
          · cases failed
            exact Or.inl rfl
          · cases failed
            exact Or.inr ⟨rfl, text, rfl, long⟩

end Answers

section Phases

variable {p : Phase} {files : List Json} {category : Json}

def hasParts : Json → Bool
  | .arr _ => true
  | .obj _ => true
  | _ => false

/-- A category by which a phase can be looked up: a text, or a value that counts as false and has no parts. -/
def Labelled (category : Json) : Prop :=
  (∃ label, category = .str label) ∨ category.truthy = false ∧ hasParts category = false

theorem queryPart_cases (category : Json) :
    (((∃ label, category = .str label) ∨ category.truthy = false) ∧
      ∃ part, queryPart category = .ok part) ∨
    (((∀ label, category ≠ .str label) ∧ category.truthy = true) ∧
      queryPart category = .error .wrongKind) := by
  unfold queryPart
  split
  · rename_i label
    exact Or.inl ⟨Or.inl ⟨label, rfl⟩, label, rfl⟩
  · rename_i other
    split
    · rename_i truthy
      exact Or.inr ⟨⟨fun label same => other label same, truthy⟩, rfl⟩
    · rename_i falsy
      exact Or.inl ⟨Or.inr (Bool.eq_false_iff.mpr falsy), "", rfl⟩

theorem queryKind_cases (category : Json) :
    (hasParts category = false ∧ ∃ kind, queryKind category = .ok kind) ∨
    (hasParts category = true ∧ queryKind category = .error .wrongKind) := by
  cases category with
  | arr items => exact Or.inr ⟨rfl, rfl⟩
  | obj members => exact Or.inr ⟨rfl, rfl⟩
  | str label =>
      refine Or.inl ⟨rfl, ?_⟩
      unfold queryKind
      split
      · exact ⟨_, rfl⟩
      · exact ⟨_, rfl⟩
      · exact ⟨_, rfl⟩
      · rename_i same
        cases same
      · rename_i same
        cases same
      · exact ⟨_, rfl⟩
  | _ => exact Or.inl ⟨rfl, _, rfl⟩

theorem planQuery_eq (p : Phase) (files : List Json) : planQuery p files =
    (queryPart p.category).map fun category => Text.join " " <|
      ([p.title, category, Text.clip 200 p.description] ++ queryPaths files).filter (· != "") := by
  unfold planQuery
  cases queryPart p.category <;> rfl

theorem exists_query (labelled : Labelled p.category) (files : List Json) :
    ∃ query kind, planQuery p files = .ok query ∧ queryKind p.category = .ok kind := by
  have no_parts : hasParts p.category = false := by
    rcases labelled with ⟨label, same⟩ | ⟨-, apart⟩
    · rw [same]
      rfl
    · exact apart
  have named : (∃ label, p.category = .str label) ∨ p.category.truthy = false :=
    labelled.imp_right And.left
  obtain ⟨part, part_eq⟩ : ∃ part, queryPart p.category = .ok part := by
    rcases queryPart_cases p.category with ⟨-, made⟩ | ⟨⟨other, truthy⟩, -⟩
    · exact made
    · rcases named with ⟨label, same⟩ | falsy
      · exact absurd same (other label)
      · rw [falsy] at truthy
        cases truthy
  obtain ⟨kind, kind_eq⟩ : ∃ kind, queryKind p.category = .ok kind := by
    rcases queryKind_cases p.category with ⟨-, made⟩ | ⟨parts, -⟩
    · exact made
    · rw [no_parts] at parts
      cases parts
  have query_eq := planQuery_eq p files
  rw [part_eq] at query_eq
  exact ⟨_, kind, query_eq, kind_eq⟩

variable {σ : Type} {settings : PlannerSettings} {find : String → String → StateM σ RelevantContext}
  {ask : Completion.Call → StateM σ (Except Failure String)}

theorem expandPhase_labelled {query kind : String} (searched : planQuery p files = .ok query)
    (known : queryKind p.category = .ok kind) : expandPhase settings find ask p files = do
      let context ← find query kind
      return planOfOutcome (← ask (planCall settings p (context.files.take 3))) := by
  rw [expandPhase, searched, known]

theorem expandPhase_unlabelled (unlabelled : ¬ Labelled p.category) (files : List Json) :
    expandPhase settings find ask p files = pure (.error (.data .wrongKind)) := by
  have query := planQuery_eq p files
  rcases queryPart_cases p.category with ⟨named, part, part_eq⟩ | ⟨-, part_eq⟩
  · rcases queryKind_cases p.category with ⟨apart, -⟩ | ⟨-, kind_eq⟩
    · exact absurd (named.imp_right fun falsy => ⟨falsy, apart⟩) unlabelled
    · rw [expandPhase, query, part_eq, kind_eq]
      rfl
  · rw [expandPhase, query, part_eq]
    rfl

end Phases

section Plans

variable {σ : Type}

/-- A plan comes of a phase exactly if the answer has the two texts, and one failure in all other cases, except
that a number that is too long is a failure of its own. A phase with a category that cannot be looked up
is refused before anything else happens. -/
theorem expandPhase_described (settings : PlannerSettings)
    (find : String → String → StateM σ RelevantContext)
    (ask : Completion.Call → StateM σ (Except Failure String)) (p : Phase) (files : List Json) (world : σ)
    (provided : ∀ call world failure, ((ask call).run world).1 = .error failure →
      failure.isCompletion = true) :
    (Labelled p.category → ∃ query kind, planQuery p files = .ok query ∧
      queryKind p.category = .ok kind ∧ ∃ context found outcome answered result,
        (find query kind).run world = (context, found) ∧
        (ask (planCall settings p (context.files.take 3))).run found = (outcome, answered) ∧
        (expandPhase settings find ask p files).run world = (result, answered) ∧
        (∀ d, result = .ok d ↔ ∃ text plan instruction, outcome = .ok text ∧
          Describes text plan instruction ∧
          d = ⟨Text.strip plan, Text.clip 600 (Text.strip instruction)⟩) ∧
        (∀ d, result = .ok d → d.plan ≠ "" ∧ Text.strip d.plan = d.plan ∧ d.instruction.length ≤ 600) ∧
        ∀ failure, result = .error failure →
          failure = .planning .unusablePlan ∧ failure.message = PlanningFault.publicMessage ∨
          failure = .data .badValue ∧ ∃ text, outcome = .ok text ∧ HasLongNumber text) ∧
    (¬ Labelled p.category →
      (expandPhase settings find ask p files).run world = (.error (.data .wrongKind), world)) := by
  refine ⟨?_, ?_⟩
  · intro labelled
    obtain ⟨query, kind, searched, known⟩ := exists_query labelled files
    refine ⟨query, kind, searched, known, _, _, _, _, _, rfl, rfl,
      by rw [expandPhase_labelled searched known]; rfl, ?_, ?_, ?_⟩
    · exact fun d => planOfOutcome_eq_ok_iff
    · intro d made
      obtain ⟨text, plan, instruction, -, described, rfl⟩ := planOfOutcome_eq_ok_iff.mp made
      refine ⟨described.written, Text.strip_strip plan, ?_⟩
      rw [Text.clip, String.length_ofList, List.length_take]
      omega
    · intro failure failed
      rcases planOfOutcome_error (provided _ _) failed with rfl | long
      · exact Or.inl ⟨rfl, rfl⟩
      · exact Or.inr long
  · intro unlabelled
    rw [expandPhase_unlabelled unlabelled]
    rfl

def loginPhase : Phase :=
  { id := "phase-01", title := "Fix login", description := "Correct the session check in the login flow" }

def loginPlan (text : String) : Except Failure DetailedPlan × Unit :=
  (expandPhase {} (fun _ _ => pure {}) (fun _ => pure (.ok text)) loginPhase [] : StateM Unit _).run ()

theorem expandPhase_described_login :
    loginPlan "```\n\x7b\"plan\": \" # Plan \", \"instruction\": \"Do it\"\x7d\n```" =
      (.ok ⟨"# Plan", "Do it"⟩, ()) := by
  let text := "```\n\x7b\"plan\": \" # Plan \", \"instruction\": \"Do it\"\x7d\n```"
  have provided : ∀ (call : Completion.Call) (world : Unit) failure,
      ((pure (.ok text) : StateM Unit (Except Failure String)).run world).1 = .error failure →
        failure.isCompletion = true := by
    intro call world failure failed
    cases failed
  have described := expandPhase_described {} (fun _ _ => pure {}) (fun _ => pure (.ok text)) loginPhase [] ()
    provided
  obtain ⟨query, kind, -, -, context, found, outcome, answered, result, -, asked, expanded, plans, -⟩ :=
    described.1 (Or.inl ⟨"improvement", rfl⟩)
  cases asked
  have inside : unfence text.toList =
      "\x7b\"plan\": \" # Plan \", \"instruction\": \"Do it\"\x7d".toList := by
    decide +kernel
  have texts : Describes text " # Plan " "Do it" :=
    ⟨⟨_, _, unfenced_iff.mpr inside, rfl, rfl, rfl⟩, by decide⟩
  have made := (plans ⟨"# Plan", "Do it"⟩).mpr ⟨text, _, _, rfl, texts, rfl⟩
  rw [made] at expanded
  exact expanded

/-- The two texts are there, and no number would have to be read for them. -/
theorem longNumber_refused :
    loginPlan (String.ofList ("\x7b\"n\": ".toList ++ (longDigits ++
      ", \"plan\": \"p\", \"instruction\": \"i\"\x7d".toList))) = (.error (.data .badValue), ()) := by
  have halts : Text.Halts Json.goesOn ", \"plan\": \"p\", \"instruction\": \"i\"\x7d".toList := by
    intro c first
    cases first
    decide
  have unread := parseJson_longMember halts ⟨'\x7d', rfl, by decide⟩
  have refused := planOfOutcome_unread unread
  exact congrArg (·, ()) refused

end Plans

end Groundwork.Planning
