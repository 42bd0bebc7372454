import Groundwork.Proofs.Completion.Providers
import Groundwork.Proofs.Text.Case

/-!
Names of providers. The service is looked up by the name in lower case, the model and the endpoint by the
name as it is written. So a name with capitals has the service of its lower case, but the defaults of an
unknown name: those of the first service.
-/

namespace Groundwork

namespace LlmSettings

def lowered (s : LlmSettings) : LlmSettings := { s with provider := Text.lower s.provider }

def ownNames : List String := ["openai", "openrouter", "ollama"]

/-- Capitals in the name of the provider make no difference, as there are none, or the name in lower case has
no defaults of its own, or no default is needed. -/
def Caseless (s : LlmSettings) : Prop :=
  Text.lower s.provider = s.provider ∨ Text.lower s.provider ∉ ownNames ∨
    s.model.truthy = true ∧ s.endpoint ≠ ""

end LlmSettings

namespace Completion

open LlmSettings (ownNames)

section Defaults

variable {name : String}

def defaultOf (table : List (String × String)) (first name : String) : String :=
  (table.lookup name).getD first

theorem resolvedModel_eq (s : LlmSettings) : s.resolvedModel =
    if s.model.truthy then s.model else .str (defaultOf defaultModels groqModel s.provider) := rfl

theorem resolvedEndpoint_eq (s : LlmSettings) : s.resolvedEndpoint =
    if s.endpoint = "" then defaultOf defaultEndpoints groqEndpoint s.provider else s.endpoint := by
  simp only [LlmSettings.resolvedEndpoint, String.isEmpty_iff, defaultOf]

theorem notMem_ownNames (capitals : Text.lower name ≠ name) : name ∉ ownNames := by
  have settled : ∀ own ∈ ownNames, Text.lower own = own := by decide +kernel
  exact fun member => capitals (settled name member)

/-- A table that has the default of the first service under its name and other defaults under the others. -/
structure IsTable (table : List (String × String)) (first : String) : Prop where
  names : table.map (·.1) = "groq" :: ownNames
  values : ∀ entry ∈ table, entry.2 = first ↔ entry.1 = "groq"

theorem isTable_models : IsTable defaultModels groqModel := ⟨rfl, by decide⟩

theorem isTable_endpoints : IsTable defaultEndpoints groqEndpoint := ⟨rfl, by decide⟩

namespace IsTable

variable {table : List (String × String)} {first : String} (isTable : IsTable table first)

include isTable

theorem defaultOf_iff : defaultOf table first name = first ↔ name ∉ ownNames := by
  rw [defaultOf]
  cases found : table.lookup name with
  | none =>
      have absent : name ∉ table.map (·.1) := by
        intro member
        obtain ⟨entry, among, rfl⟩ := List.mem_map.mp member
        simpa using List.lookup_eq_none_iff.mp found entry among
      rw [isTable.names] at absent
      exact iff_of_true rfl fun member => absent (List.mem_cons_of_mem _ member)
  | some value =>
      obtain ⟨before, after, whole, _⟩ := List.lookup_eq_some_iff.mp found
      have among : (name, value) ∈ table := by simp [whole]
      have named : name ∈ "groq" :: ownNames := isTable.names ▸ List.mem_map_of_mem among
      rw [Option.getD_some, isTable.values _ among]
      constructor
      · rintro rfl
        decide
      · exact (List.mem_cons.mp named).resolve_right

theorem defaultOf_lower_iff : defaultOf table first (Text.lower name) = defaultOf table first name ↔
    Text.lower name = name ∨ Text.lower name ∉ ownNames := by
  by_cases same : Text.lower name = name
  · rw [same]
    simp
  · rw [isTable.defaultOf_iff.mpr (notMem_ownNames same), isTable.defaultOf_iff]
    exact (or_iff_right same).symm

end IsTable

end Defaults

namespace Provider

theorem request_eq {p : Provider} {c : Call} {r : HttpRequest} (made : p.request c = .ok r) :
    r.url = p.endpoint ∧ r.body.get? "model" = some (p.modelFor c) := by
  rw [request] at made
  split at made
  · obtain rfl := Except.ok.inj made
    exact ⟨rfl, rfl⟩
  · split at made
    · simp at made
    · obtain rfl := Except.ok.inj made
      exact ⟨rfl, rfl⟩

section Settings

variable (s : LlmSettings)

theorem service_lowered : (ofSettings s.lowered).service = (ofSettings s).service := by
  rw [ofSettings, ofSettings, LlmSettings.lowered, Text.lower_lower]

theorem model_lowered_iff : (ofSettings s.lowered).model = (ofSettings s).model ↔
    s.model.truthy = true ∨ Text.lower s.provider = s.provider ∨
      Text.lower s.provider ∉ ownNames := by
  change s.lowered.resolvedModel = s.resolvedModel ↔ _
  rw [resolvedModel_eq, resolvedModel_eq, LlmSettings.lowered]
  split
  · rename_i set
    exact iff_of_true rfl (Or.inl set)
  · rename_i unset
    rw [Json.str.injEq, isTable_models.defaultOf_lower_iff]
    exact (or_iff_right unset).symm

theorem endpoint_lowered_iff : (ofSettings s.lowered).endpoint = (ofSettings s).endpoint ↔
    s.endpoint ≠ "" ∨ Text.lower s.provider = s.provider ∨ Text.lower s.provider ∉ ownNames := by
  change s.lowered.resolvedEndpoint = s.resolvedEndpoint ↔ _
  rw [resolvedEndpoint_eq, resolvedEndpoint_eq, LlmSettings.lowered]
  split
  · rename_i unset
    rw [isTable_endpoints.defaultOf_lower_iff]
    exact (or_iff_right (not_not.mpr unset)).symm
  · rename_i set
    exact iff_of_true rfl (Or.inl set)

theorem ofSettings_lowered_iff : ofSettings s.lowered = ofSettings s ↔
    (ofSettings s.lowered).model = (ofSettings s).model ∧
      (ofSettings s.lowered).endpoint = (ofSettings s).endpoint := by
  constructor
  · intro same
    rw [same]
    exact ⟨rfl, rfl⟩
  · rintro ⟨model, endpoint⟩
    have service := service_lowered s
    rw [ofSettings] at service model endpoint ⊢
    simp only at service model endpoint
    rw [service, model, endpoint]
    rfl

theorem caseless_iff : ofSettings s.lowered = ofSettings s ↔ s.Caseless := by
  rw [ofSettings_lowered_iff, model_lowered_iff, endpoint_lowered_iff, LlmSettings.Caseless]
  tauto

theorem keyed_lowered : Keyed (ofSettings s.lowered) ↔ Keyed (ofSettings s) := by
  rw [Keyed, Keyed, service_lowered]
  rfl

theorem request_lowered_iff :
    (∀ c, (ofSettings s.lowered).request c = (ofSettings s).request c) ↔
      s.Caseless ∨ ¬ Keyed (ofSettings s) := by
  constructor
  · intro same
    by_cases keyed : Keyed (ofSettings s)
    · -- A call without a model of its own shows that of the provider.
      let call : Call := { system := "", user := "" }
      obtain ⟨r, made⟩ := request_of_keyed keyed call
      obtain ⟨url, named⟩ := request_eq made
      obtain ⟨urlLowered, namedLowered⟩ := request_eq ((same call).trans made)
      left
      rw [← caseless_iff, ofSettings_lowered_iff]
      refine ⟨?_, urlLowered.symm.trans url⟩
      exact Option.some.inj (namedLowered.symm.trans named)
    · exact Or.inr keyed
  · rintro (caseless | unkeyed) c
    · rw [(caseless_iff s).mpr caseless]
    · have unkeyedLowered := mt (keyed_lowered s).mp unkeyed
      rw [request_of_not_keyed unkeyed, request_of_not_keyed unkeyedLowered, party, party,
        service_lowered]

theorem mixed_of_not_caseless (mixed : ¬ s.Caseless) : (ofSettings s).service ≠ .groq ∧
    (ofSettings s).model = (if s.model.truthy then s.model else .str groqModel) ∧
    (ofSettings s).endpoint = if s.endpoint = "" then groqEndpoint else s.endpoint := by
  simp only [LlmSettings.Caseless, not_or, not_not] at mixed
  obtain ⟨capitals, own, _⟩ := mixed
  have unknown := notMem_ownNames capitals
  have services : ∀ name ∈ ownNames, (Service.ofName? name).getD .groq ≠ .groq := by decide
  refine ⟨services _ own, ?_, ?_⟩
  · change s.resolvedModel = _
    rw [resolvedModel_eq, isTable_models.defaultOf_iff.mpr unknown]
  · change s.resolvedEndpoint = _
    rw [resolvedEndpoint_eq, isTable_endpoints.defaultOf_iff.mpr unknown]

/-- The name of a provider in lower case gives the same service, key and timeout. It gives the same provider,
and the same requests if any are made, exactly if capitals make no difference to the defaults that are
needed. Otherwise those of the first service are used with another one. -/
theorem ofSettings_lowered :
    ((ofSettings s.lowered).service = (ofSettings s).service ∧
      (ofSettings s.lowered).apiKey = (ofSettings s).apiKey ∧
      (ofSettings s.lowered).timeout = (ofSettings s).timeout) ∧
    (ofSettings s.lowered = ofSettings s ↔ s.Caseless) ∧
    ((∀ c, (ofSettings s.lowered).request c = (ofSettings s).request c) ↔
      s.Caseless ∨ ¬ Keyed (ofSettings s)) ∧
    (¬ s.Caseless → (ofSettings s).service ≠ .groq ∧
      (ofSettings s).model = (if s.model.truthy then s.model else .str groqModel) ∧
      (ofSettings s).endpoint = if s.endpoint = "" then groqEndpoint else s.endpoint) :=
  ⟨⟨service_lowered s, rfl, rfl⟩, caseless_iff s, request_lowered_iff s, mixed_of_not_caseless s⟩

end Settings

def capitalSettings : LlmSettings := { provider := "OpenAI", apiKey := "k" }

theorem capitalSettings_unlike : ¬ capitalSettings.Caseless ∧
    ofSettings capitalSettings.lowered ≠ ofSettings capitalSettings ∧
    (ofSettings capitalSettings).service ≠ .groq ∧
    (ofSettings capitalSettings).model = .str groqModel ∧
    (ofSettings capitalSettings).endpoint = groqEndpoint := by
  have mixed : ¬ capitalSettings.Caseless := by
    unfold LlmSettings.Caseless
    decide +kernel
  obtain ⟨_, same, _, others⟩ := ofSettings_lowered capitalSettings
  exact ⟨mixed, fun equal => mixed (same.mp equal), others mixed⟩

/-- The requests of one service go to the endpoint of another, with a model of the latter. -/
theorem capitalSettings_mixed : (ofSettings capitalSettings).service = .openAi ∧
    (ofSettings capitalSettings).model = .str groqModel ∧
    (∀ c r, (ofSettings capitalSettings).request c = .ok r → r.url = groqEndpoint) ∧
    (ofSettings capitalSettings.lowered).model = .str "gpt-4o-mini" ∧
    (ofSettings capitalSettings.lowered).endpoint = "https://api.openai.com/v1/chat/completions" := by
  refine ⟨by decide +kernel, rfl, fun c r made => (request_eq made).1, rfl, ?_⟩
  decide +kernel

end Provider

end Completion

end Groundwork
