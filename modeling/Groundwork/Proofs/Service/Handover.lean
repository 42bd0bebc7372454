import Groundwork.Proofs.Service.Namespaces

/-!
Phases that are handed over from one request to the next. The phases in an answer are what a plan is
asked for with. The reasoning of the first one repeats the goal after an opening, and a goal that is
accepted may be too long for that: the phase made for it is then refused.
-/

namespace Groundwork.Service

open Planning

variable {σ τ : Type} {c : Configuration} {b : Backend (StateT τ (StateM σ))} {payload : Json}
  {r : PhaseRequest} {strategy : Option String} {t t' : τ} {plan : PhasePlan}

theorem hidden_ok {α : Type} {message : String} {result : Except Failure α} {value : α}
    (shown : hidden message result = .ok value) : result = .ok value := by
  cases result with
  | error failure => simp [hidden] at shown
  | ok other => exact shown

theorem phases_ruled (accepted : Request.validate Request.phases payload = .ok r)
    (byRule : strategyName c.planner strategy ≠ "llm")
    (ran : Ran (phases c b payload strategy) t (.ok plan) t') :
    (rulePhases r.prompt plan.context (analyzePrompt r.prompt)).map
      (capPhases (phaseLimit c.planner)) = .ok plan.phases := by
  rw [phases, accepted] at ran
  obtain ⟨context, _, _, planned⟩ := ran.of_bind
  obtain ⟨made, _, generated, planned⟩ := planned.of_bind
  obtain ⟨capped, _, kept, planned⟩ := planned.of_bind
  obtain ⟨found, rfl, rfl⟩ := ok_of_map (hidden_ok planned.of_pure.1.symm)
  obtain ⟨rfl, rfl⟩ := (ok_of_guarded kept).of_pure
  rw [generatePhases_byRule byRule] at generated
  exact (ok_of_guarded generated).of_pure.1.symm

theorem plannable_of_reasoned {prompt : String} {context : RelevantContext} {a : PromptAnalysis}
    {phases : List Phase} (reasoned : Reasoned prompt context a phases) (some : phases ≠ []) :
    ∃ first rest, phases = first :: rest ∧ first.Presentable ∧ (∀ p ∈ rest, p.Plannable) ∧
      (first.Plannable ↔
        (RepeatsGoal context a → (opening a.kind).length + prompt.length ≤ 1000)) := by
  by_cases repeats : RepeatsGoal context a
  · obtain ⟨first, rest, rfl, presentable, reason, others⟩ := reasoned.1 repeats
    refine ⟨first, rest, rfl, presentable, fun p member => (others p member).plannable, ?_⟩
    rw [presentable.plannable_iff, reason, String.toList_append, List.length_append,
      String.length_toList, String.length_toList]
    exact ⟨fun short _ => short, fun short => short repeats⟩
  · have brief := reasoned.2 repeats
    obtain ⟨first, rest, rfl⟩ := List.exists_cons_of_ne_nil some
    obtain ⟨firstBrief, others⟩ := List.forall_mem_cons.mp brief
    have firstIff : first.Plannable ↔
        (RepeatsGoal context a → (opening a.kind).length + prompt.length ≤ 1000) :=
      ⟨fun _ goal => absurd goal repeats, fun _ => firstBrief.plannable⟩
    exact ⟨first, rest, rfl, firstBrief.toPresentable, fun p member => (others p member).plannable,
      firstIff⟩

def blindWorld : Backend (StateT Store (StateM Unit)) :=
  { smallWorld.backend remoteDigests with embed := fun _ => return .error (.data .outOfRange) }

theorem phases_blindWorld (accepted : Request.validate Request.phases payload = .ok r) :
    ∃ plan, Ran (phases remoteDigests blindWorld payload none) {} (.ok plan) {} ∧
      plan.context = {} := by
  let a := analyzePrompt r.prompt
  obtain ⟨found, ruled⟩ : ∃ found, phasesByRule r.prompt {} a = .ok found := by
    rcases phasesByRule_cases r.prompt {} a with ⟨found, ruled, _⟩ | ⟨_, _, failed, _⟩
    · exact ⟨found, ruled⟩
    · cases failed
  obtain ⟨kept, capped⟩ : ∃ kept, (rulePhases r.prompt {} a).map
      (capPhases (phaseLimit remoteDigests.planner)) = .ok kept := by
    rw [rulePhases, ruled]
    exact ⟨_, rfl⟩
  have byRule : strategyName remoteDigests.planner none ≠ "llm" := by decide
  have searched (kind : String) :
      contextFor remoteDigests blindWorld r.nspace r.prompt kind = pure {} := rfl
  have fit (names : List String) (made : Except Failure (List Phase)) :
      guarded remoteDigests.planner.unfit names (pure made : StateT Store (StateM Unit) _) =
        pure made := by
    have none : remoteDigests.planner.unfit = [] := rfl
    rw [guarded, none, Summary.needed_of_fit (by simp)]
  refine ⟨⟨r, a, kept, {}⟩, ⟨(), (), ?_⟩, rfl⟩
  rw [phases, accepted]
  simp only [searched, generatePhases_byRule byRule, pure_bind, a, capped, fit]
  rfl

/-- Of phases by rule only the first one can be refused when a plan for it is asked for, and it is
refused exactly if it repeats the goal and goal and opening together are too long. -/
theorem phases_plannable (accepted : Request.validate Request.phases payload = .ok r)
    (byRule : strategyName c.planner strategy ≠ "llm")
    (ran : Ran (phases c b payload strategy) t (.ok plan) t') :
    ∃ first rest, plan.phases = first :: rest ∧ (∀ p ∈ rest, p.Plannable) ∧
      (first.Plannable ↔ (RepeatsGoal plan.context (analyzePrompt r.prompt) →
        (opening (analyzePrompt r.prompt).kind).length + r.prompt.length ≤ 1000)) ∧
      (¬ first.Plannable → ∀ m, m.lookup "phase" = some first.toJson → ∃ violations,
        Request.plan (.obj m) = .error violations ∧
          ⟨["phase", "reasoning"], .tooLong 1000⟩ ∈ violations) := by
  obtain ⟨reasoned, some⟩ := rulePhases_reasoned (phases_ruled accepted byRule ran)
  obtain ⟨first, rest, consists, presentable, others, firstIff⟩ := plannable_of_reasoned reasoned some
  refine ⟨first, rest, consists, others, firstIff, ?_⟩
  intro refused m given
  have long : 1000 < first.reasoning.toList.length :=
    Nat.not_le.mp fun short => refused (presentable.plannable_iff.mpr short)
  have checked := presentable.checked
  rw [if_pos long] at checked
  obtain ⟨all, planRefused, inAll⟩ := Phase.plan_refused checked given
  exact ⟨all, planRefused, inAll _ List.mem_cons_self⟩

theorem phases_plannable_moderate : ∃ plan first rest,
    Ran (phases remoteDigests blindWorld
      (.obj [("namespace", .str "acme-shop-main"), ("user_prompt", .str "Fix the login bug")]) none)
      {} (.ok plan) {} ∧
    plan.phases = first :: rest ∧ first.Plannable ∧ ∀ p ∈ rest, p.Plannable := by
  have accepted : Request.validate Request.phases (.obj [("namespace", .str "acme-shop-main"),
      ("user_prompt", .str "Fix the login bug")]) =
        .ok ⟨"acme-shop-main", "Fix the login bug", none⟩ := rfl
  obtain ⟨plan, ran, _⟩ := phases_blindWorld accepted
  obtain ⟨first, rest, consists, others, firstIff, _⟩ := phases_plannable accepted (by decide) ran
  refine ⟨plan, first, rest, ran, consists, firstIff.mpr fun _ => ?_, others⟩
  decide +kernel

theorem longest_refused {goal : String} (length : goal.length = 1000) :
    Request.validate Request.phases (.obj [("namespace", .str "acme-shop-main"),
        ("user_prompt", .str goal)]) = .ok ⟨"acme-shop-main", goal, none⟩ ∧
      ∃ plan, Ran (phases remoteDigests blindWorld (.obj [("namespace", .str "acme-shop-main"),
        ("user_prompt", .str goal)]) none) {} (.ok plan) {} ∧
        ∃ p ∈ plan.phases, Request.phase p.toJson = .error [⟨["reasoning"], .tooLong 1000⟩] := by
  have fits : Request.textBetween 5 (some 1000) (.str goal) = .ok goal :=
    Request.textBetween_ok (by rw [String.length_toList]; omega)
  have checked : Request.phases (.obj [("namespace", .str "acme-shop-main"),
      ("user_prompt", .str goal)]) = (Request.both (.ok "acme-shop-main") (Request.both
        (Request.within "user_prompt" (Request.textBetween 5 (some 1000) (.str goal)))
        (.ok none))).map fun read => ⟨read.1, read.2.1, read.2.2⟩ := rfl
  have accepted : Request.validate Request.phases (.obj [("namespace", .str "acme-shop-main"),
      ("user_prompt", .str goal)]) = .ok ⟨"acme-shop-main", goal, none⟩ := by
    rw [Request.validate, checked, fits]
    rfl
  refine ⟨accepted, ?_⟩
  obtain ⟨plan, ran, unsearched⟩ := phases_blindWorld accepted
  obtain ⟨reasoned, some⟩ := rulePhases_reasoned (phases_ruled accepted (by decide) ran)
  obtain ⟨first, rest, consists, presentable, _, firstIff⟩ := plannable_of_reasoned reasoned some
  refine ⟨plan, ran, first, by simp [consists], ?_⟩
  have repeats : RepeatsGoal plan.context (analyzePrompt goal) := by
    rw [unsearched]
    exact fun _ => Or.inr rfl
  rw [presentable.checked, if_pos (Nat.not_le.mp fun short => ?_)]
  have fitting : (opening (analyzePrompt goal).kind).length + goal.length ≤ 1000 :=
    firstIff.mp (presentable.plannable_iff.mpr short) repeats
  have opened := opening_length _ (analyzePrompt_kind goal)
  omega

theorem longGoal_refused : ∃ goal : String,
    Request.validate Request.phases (.obj [("namespace", .str "acme-shop-main"),
        ("user_prompt", .str goal)]) = .ok ⟨"acme-shop-main", goal, none⟩ ∧
      ∃ plan, Ran (phases remoteDigests blindWorld (.obj [("namespace", .str "acme-shop-main"),
        ("user_prompt", .str goal)]) none) {} (.ok plan) {} ∧
        ∃ p ∈ plan.phases, Request.phase p.toJson = .error [⟨["reasoning"], .tooLong 1000⟩] := by
  refine ⟨.ofList (.replicate 1000 'x'), longest_refused ?_⟩
  rw [← String.length_toList, String.toList_ofList, List.length_replicate]

end Groundwork.Service
