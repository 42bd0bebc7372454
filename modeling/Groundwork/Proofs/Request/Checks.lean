import Groundwork.Proofs.Planning.Reasons
import Groundwork.Request.Model

/-!
What the checks of a request accept. A phase that has been made is sent in again when a plan for it is
asked for: only a reasoning that is too long is refused, and what is accepted is the phase itself.
-/

namespace Groundwork

namespace Request

section Parts

theorem both_ok {α β : Type} {first : Except (List Violation) α} {second : Except (List Violation) β}
    {a : α} {b : β} (accepted : both first second = .ok (a, b)) :
    first = .ok a ∧ second = .ok b := by
  cases first <;> cases second <;> simp_all [both]

theorem both_refused {α β : Type} (first : Except (List Violation) α)
    (second : Except (List Violation) β) {violations : List Violation}
    (refused : first = .error violations ∨ second = .error violations) :
    ∃ all, both first second = .error all ∧ violations ⊆ all := by
  rcases refused with rfl | rfl
  · cases second with
    | ok b => exact ⟨violations, rfl, List.Subset.refl _⟩
    | error others => exact ⟨violations ++ others, rfl, List.subset_append_left _ _⟩
  · cases first with
    | ok a => exact ⟨violations, rfl, List.Subset.refl _⟩
    | error others => exact ⟨others ++ violations, rfl, List.subset_append_right _ _⟩

theorem field_ok {α : Type} {names : List String} {check : Json → Except (List Violation) α}
    {m : Json.Members} {a : α} (accepted : field names check m = .ok a) :
    ∃ value, check value = .ok a := by
  rw [field] at accepted
  split at accepted
  · rename_i value _
    cases checked : check value with
    | error violations => simp [within, checked] at accepted
    | ok other => exact ⟨value, by simpa [within, checked] using accepted⟩
  · simp [within, fail] at accepted

end Parts

section Values

theorem textBetween_open {least : Nat} {s : String} (many : least ≤ s.toList.length) :
    textBetween least none (.str s) = .ok s := by
  simp only [textBetween, if_neg (Nat.not_lt.mpr many)]

theorem textBetween_ok {least most : Nat} {s : String}
    (bounds : least ≤ s.toList.length ∧ s.toList.length ≤ most) :
    textBetween least (some most) (.str s) = .ok s := by
  simp only [textBetween, if_neg (Nat.not_lt.mpr bounds.1), if_neg (Nat.not_lt.mpr bounds.2)]

theorem textBetween_tooLong {least most : Nat} {s : String} (many : least ≤ s.toList.length)
    (more : most < s.toList.length) :
    textBetween least (some most) (.str s) = fail (.tooLong most) := by
  simp only [textBetween, if_neg (Nat.not_lt.mpr many), if_pos more]

theorem among_ok {choices : List String} {s : String} (valid : s ∈ choices) :
    among choices (.str s) = .ok s := by
  simp [among, valid]

theorem each_text (i : Nat) (texts : List String) : each text i (texts.map .str) = .ok texts := by
  induction texts generalizing i with
  | nil => rfl
  | cons s rest ih =>
      rw [List.map_cons, each, ih]
      rfl

theorem list_strings (texts : List String) : list text (.strings texts) = .ok texts :=
  each_text 0 texts

end Values

end Request

namespace Phase

theorem textsOf_strings (texts : List String) : textsOf (.strings texts) = .ok texts := by
  simp [textsOf, Json.strings, Function.comp_def, Json.shown]

theorem ofMembers_toJson (p : Phase) : ∃ m, p.toJson = .obj m ∧ ofMembers m = .ok p := by
  refine ⟨_, rfl, ?_⟩
  simp [ofMembers, required, listMember, textsOf_strings, List.lookup_cons, bind, Except.bind, pure,
    Except.pure, Json.shown]

theorem Presentable.received {p : Phase} (presentable : p.Presentable) :
    Request.phase p.toJson = (Request.within "reasoning"
      (Request.textBetween 10 (some 1000) (.str p.reasoning))).map fun reason =>
        { p with reasoning := reason } := by
  obtain ⟨id, title, description, ⟨level, isLevel, complexity⟩, ⟨rank, isRank, priority⟩,
    ⟨kind, isKind, category⟩, _⟩ := presentable
  cases checked : Request.textBetween 10 (some 1000) (.str p.reasoning) <;>
    simp [Request.phase, Request.object, toJson, Request.phaseMembers, Request.labels, Request.field,
      Request.fieldOr, Request.find?, List.lookup_cons, Request.within, Request.both, Except.map,
      Request.textBetween_open id, Request.textBetween_ok title, Request.textBetween_ok description,
      Request.list_strings, complexity, priority, category, Request.among_ok isLevel,
      Request.among_ok isRank, Request.among_ok isKind, checked]

theorem Presentable.checked {p : Phase} (presentable : p.Presentable) :
    Request.phase p.toJson =
      if 1000 < p.reasoning.toList.length then .error [⟨["reasoning"], .tooLong 1000⟩] else .ok p := by
  rw [presentable.received]
  split
  · rename_i long
    rw [Request.textBetween_tooLong presentable.reasoning long]
    rfl
  · rename_i short
    rw [Request.textBetween_ok ⟨presentable.reasoning, Nat.not_lt.mp short⟩]
    rfl

/-- Sent in with a request for a plan the phase is accepted, and what is read of it is the phase. -/
def Plannable (p : Phase) : Prop :=
  ∃ q m, Request.phase p.toJson = .ok q ∧ q.toJson = .obj m ∧ ofMembers m = .ok p

theorem Presentable.plannable_iff {p : Phase} (presentable : p.Presentable) :
    p.Plannable ↔ p.reasoning.toList.length ≤ 1000 := by
  have checked := presentable.checked
  constructor
  · rintro ⟨q, m, accepted, _⟩
    by_contra long
    rw [if_pos (Nat.not_le.mp long), accepted] at checked
    cases checked
  · intro short
    rw [if_neg (Nat.not_lt.mpr short)] at checked
    obtain ⟨m, written, read⟩ := ofMembers_toJson p
    exact ⟨p, m, checked, written, read⟩

theorem Brief.plannable {p : Phase} (brief : p.Brief) : p.Plannable :=
  brief.toPresentable.plannable_iff.mpr brief.brief

theorem plan_refused {p : Phase} {violations : List Request.Violation}
    (refused : Request.phase p.toJson = .error violations) {m : Json.Members}
    (given : m.lookup "phase" = some p.toJson) :
    ∃ all, Request.plan (.obj m) = .error all ∧
      ∀ v ∈ violations, ⟨"phase" :: v.path, v.problem⟩ ∈ all := by
  have field : Request.field ["phase"] Request.phase m =
      .error (violations.map fun v => ⟨"phase" :: v.path, v.problem⟩) := by
    simp [Request.field, Request.find?, given, refused, Request.within]
  obtain ⟨some, refusedSome, inSome⟩ := Request.both_refused _
    (Request.field ["top_relevant_files"] (Request.listBetween 1 20 Request.file) m) (.inl field)
  obtain ⟨all, refusedAll, inAll⟩ := Request.both_refused
    (Request.field ["namespace"] Request.nspace m) _ (.inr refusedSome)
  refine ⟨all, ?_, fun v member => inAll (inSome (List.mem_map_of_mem member))⟩
  rw [Request.plan, Request.object, Request.planMembers, refusedAll]
  rfl

end Phase

end Groundwork
