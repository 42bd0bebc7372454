import Groundwork.Configuration
import Mathlib.Data.List.Basic

/-!
Where the values of a configuration come from. The document is laid over the defaults field by field, the
variables that are set come on top of it, and which variables these are depends on the providers that have
come out by then. Last, the dimension of remote embeddings is fitted; this looks at the number alone.
-/

namespace Groundwork

theorem lookup_map_value {α β γ : Type} [BEq α] [LawfulBEq α] (f : α → β → γ) (entries : List (α × β))
    (key : α) :
    (entries.map fun entry => (entry.1, f entry.1 entry.2)).lookup key = (entries.lookup key).map (f key) := by
  induction entries with
  | nil => rfl
  | cons entry rest ih =>
      obtain ⟨k, v⟩ := entry
      rw [List.map_cons, List.lookup_cons, List.lookup_cons, ih]
      by_cases same : key = k
      · subst k
        simp only [beq_self_eq_true, Option.map_some]
      · simp only [beq_false_of_ne same]

theorem Json.lookup_setMember (name query : String) (value : Json) (members : Json.Members) :
    (setMember name value members).lookup query =
      if query = name then some value else members.lookup query := by
  induction members with
  | nil =>
      by_cases same : query = name
      · simp [setMember, same]
      · simp [setMember, List.lookup_cons, beq_false_of_ne same, same]
  | cons member rest ih =>
      obtain ⟨n, v⟩ := member
      by_cases here : n = name
      · subst n
        by_cases same : query = name
        · simp [setMember, same]
        · simp [setMember, List.lookup_cons, beq_false_of_ne same, same]
      · rw [setMember, if_neg here, List.lookup_cons, List.lookup_cons, ih]
        by_cases same : query = n
        · subst query
          simp [here]
        · simp [beq_false_of_ne same]

namespace Configuration

def fieldNames (sections : List (String × Json.Members)) : List (String × List String) :=
  sections.map fun entry => (entry.1, entry.2.map (·.1))

def Known (part name : String) : Prop :=
  ∃ names, (fieldNames defaultSections).lookup part = some names ∧ name ∈ names

def Tabular (document : Json.Members) : Prop :=
  ∀ part ∈ defaultSections.map (·.1), ∀ value, document.lookup part = some value →
    ∃ given, value = .obj given

def tableOf (document : Json.Members) (part : String) : Json.Members :=
  match document.lookup part with
  | some (.obj given) => given
  | _ => []

def defaultOf (part name : String) : Json :=
  (((defaultSections.lookup part).getD []).lookup name).getD .null

def stated (document : Json.Members) (part name : String) : Json :=
  ((tableOf document part).lookup name).getD (defaultOf part name)

def keyOf : Json → Option String
  | .str provider => keyVariables.lookup provider
  | _ => none

def variableFor (c : Configuration) : String → String → Option String
  | "llm", "provider" => some "VIBEPLAN_LLM_PROVIDER"
  | "llm", "model" => some "VIBEPLAN_LLM_MODEL"
  | "llm", "api_key" => keyOf (c.field "llm" "provider")
  | "embeddings", "api_key" => if c.embedsRemotely then some "OPENAI_API_KEY" else none
  | _, _ => none

structure Sourced (document : Json.Members) (env : Environment) (c : Configuration) : Prop where
  fields : fieldNames c.sections = fieldNames defaultSections
  values : ∀ part name, Known part name → ¬ (part = "embeddings" ∧ name = "dim") →
    c.field part name =
      (((c.variableFor part name).bind env.value?).map Json.str).getD (stated document part name)
  dimension : c.field "embeddings" "dim" =
    if c.embedsRemotely ∧ isDefaultDimension (stated document "embeddings" "dim") then
      .int remoteDimension
    else stated document "embeddings" "dim"

variable {c : Configuration} {part name : String} {value : Json}

theorem lookup_set (c : Configuration) (part name query : String) (value : Json) :
    (c.set part name value).sections.lookup query = (c.sections.lookup query).map fun members =>
      if query = part then Json.setMember name value members else members := by
  have branches : (c.set part name value).sections = c.sections.map fun entry =>
      (entry.1, if entry.1 = part then Json.setMember name value entry.2 else entry.2) := by
    apply List.map_congr_left
    intro entry _
    dsimp only
    split <;> rfl
  rw [branches]
  exact lookup_map_value (fun n members => if n = part then Json.setMember name value members else members)
    c.sections query

def Has (c : Configuration) (part : String) : Prop := (c.sections.lookup part).isSome = true

theorem field_set (has : c.Has part) (query label : String) :
    (c.set part name value).field query label =
      if query = part ∧ label = name then value else c.field query label := by
  rw [field, field, membersOf, membersOf, lookup_set]
  by_cases same : query = part
  · subst query
    obtain ⟨members, found⟩ := Option.isSome_iff_exists.mp has
    rw [found, Option.map_some, Option.getD_some, Option.getD_some, if_pos rfl, Json.lookup_setMember]
    by_cases here : label = name
    · simp [here]
    · simp [here]
  · cases c.sections.lookup query <;> simp [same]

theorem field_setText (has : c.Has part) (text : Option String) (query label : String) :
    (c.setText part name text).field query label =
      if query = part ∧ label = name then (text.map Json.str).getD (c.field query label)
      else c.field query label := by
  cases text with
  | none => simp [setText]
  | some text => simp [setText, field_set has]

theorem setText_has (c : Configuration) (part name query : String) (text : Option String) :
    (c.setText part name text).Has query ↔ c.Has query := by
  cases text with
  | none => rfl
  | some text => rw [setText, Has, Has, lookup_set, Option.isSome_map]

theorem names_setMember {members : Json.Members} (known : name ∈ members.map (·.1)) :
    (Json.setMember name value members).map (·.1) = members.map (·.1) := by
  induction members with
  | nil => simp at known
  | cons member rest ih =>
      obtain ⟨n, v⟩ := member
      rw [Json.setMember]
      by_cases here : n = name
      · simp [here]
      · have later : name ∈ rest.map (·.1) := by simpa [Ne.symm here] using known
        rw [if_neg here, List.map_cons, List.map_cons, ih later]

theorem fieldNames_set (known : ∀ entry ∈ fieldNames c.sections, entry.1 = part → name ∈ entry.2) :
    fieldNames (c.set part name value).sections = fieldNames c.sections := by
  rw [fieldNames, fieldNames, set, List.map_map]
  apply List.map_congr_left
  rintro ⟨n, members⟩ member
  by_cases here : n = part
  · subst n
    have among : name ∈ members.map (·.1) :=
      known _ (List.mem_map_of_mem (f := fun entry => (entry.1, entry.2.map (·.1))) member) rfl
    simp [names_setMember among]
  · simp [here]

theorem fieldNames_setText (text : Option String)
    (known : ∀ entry ∈ fieldNames c.sections, entry.1 = part → name ∈ entry.2) :
    fieldNames (c.setText part name text).sections = fieldNames c.sections := by
  cases text with
  | none => rfl
  | some text => exact fieldNames_set known

def laid (home : FilePath) (document : Json.Members) : Configuration :=
  ⟨home, defaultSections.map fun entry => (entry.1, overlay (tableOf document entry.1) entry.2)⟩

theorem lookup_overlay (given known : Json.Members) (name : String) :
    (overlay given known).lookup name =
      (known.lookup name).map fun default => (given.lookup name).getD default :=
  lookup_map_value (fun name default => (given.lookup name).getD default) known name

theorem overlay_nil (known : Json.Members) : overlay [] known = known :=
  List.map_id' known

theorem field_laid (home : FilePath) (document : Json.Members) {part name : String}
    (known : Known part name) : (laid home document).field part name = stated document part name := by
  obtain ⟨names, section', among⟩ := known
  rw [fieldNames, lookup_map_value fun _ (members : Json.Members) => members.map (·.1)] at section'
  obtain ⟨members, found, rfl⟩ := Option.map_eq_some_iff.mp section'
  obtain ⟨member, isMember, rfl⟩ := List.mem_map.mp among
  obtain ⟨default, isDefault⟩ : ∃ default, members.lookup member.1 = some default :=
    Option.isSome_iff_exists.mp (List.lookup_isSome_iff.mpr ⟨member, isMember, beq_self_eq_true _⟩)
  rw [field, membersOf, laid, lookup_map_value fun part => overlay (tableOf document part), found,
    Option.map_some, Option.getD_some, lookup_overlay, isDefault, Option.map_some, Option.getD_some,
    stated, defaultOf, found, Option.getD_some, isDefault, Option.getD_some]

theorem tabular_of_members {document : Json.Members}
    (tables : ∀ entry ∈ document, entry.1 ∈ defaultSections.map (·.1) → ∃ given, entry.2 = .obj given) :
    Tabular document := by
  intro part known value found
  obtain ⟨before, after, rfl, -⟩ := List.lookup_eq_some_iff.mp found
  exact tables (part, value) (by simp) known

theorem sectionOf_tabular {document : Json.Members} (tables : Tabular document) {part : String}
    {defaults : Json.Members} (known : (part, defaults) ∈ defaultSections) :
    sectionOf document part defaults = .ok (part, overlay (tableOf document part) defaults) := by
  rw [sectionOf, tableOf]
  cases found : document.lookup part with
  | none => simp only [overlay_nil]
  | some value =>
      obtain ⟨given, rfl⟩ := tables part (List.mem_map_of_mem (f := Prod.fst) known) value found
      rfl

theorem ofDocument_eq {document : Json.Members} (tables : Tabular document) (home : FilePath)
    (env : Environment) : ofDocument home document env =
      (applyEnvironment env (laid home document)).map fitDimension := by
  have read (sections : List (String × Json.Members)) (known : sections ⊆ defaultSections) :
      (sections.mapM fun entry => sectionOf document entry.1 entry.2) =
        .ok (sections.map fun entry => (entry.1, overlay (tableOf document entry.1) entry.2)) := by
    induction sections with
    | nil => rfl
    | cons entry rest ih =>
        obtain ⟨part, defaults⟩ := entry
        obtain ⟨first, others⟩ := List.cons_subset.mp known
        rw [List.mapM_cons, ih others, sectionOf_tabular tables first]
        rfl
  have opened : ofDocument home document env =
      ((defaultSections.mapM fun entry => sectionOf document entry.1 entry.2).bind fun sections =>
        (applyEnvironment env { home, sections }).map fitDimension) := rfl
  rw [opened, read defaultSections (List.Subset.refl _)]
  rfl

def Nameable : Json → Prop
  | .arr _ => False
  | .obj _ => False
  | _ => True

theorem keyVariable_of_nameable {value : Json} (nameable : Nameable value) :
    keyVariable value = .ok (keyOf value) := by
  cases value with
  | arr _ => exact nameable.elim
  | obj _ => exact nameable.elim
  | _ => rfl

theorem keyVariable_of_not_nameable {value : Json} (unusable : ¬ Nameable value) :
    keyVariable value = .error .wrongKind := by
  cases value with
  | arr _ => rfl
  | obj _ => rfl
  | _ => exact (unusable trivial).elim

def chosen (env : Environment) (c : Configuration) : Configuration :=
  (c.setText "llm" "provider" (env.value? "VIBEPLAN_LLM_PROVIDER")).setText "llm" "model"
    (env.value? "VIBEPLAN_LLM_MODEL")

def keyed (env : Environment) (c : Configuration) : Configuration :=
  (c.setText "llm" "api_key" ((keyOf (c.field "llm" "provider")).bind env.value?)).setText
    "embeddings" "api_key" (if c.embedsRemotely then env.value? "OPENAI_API_KEY" else none)

theorem embedsRemotely_congr {d : Configuration}
    (same : c.field "embeddings" "provider" = d.field "embeddings" "provider") :
    c.embedsRemotely = d.embedsRemotely := by
  rw [embedsRemotely, embedsRemotely, same]

theorem variableFor_congr {d : Configuration} (same : c.field "llm" "provider" = d.field "llm" "provider")
    (remote : c.field "embeddings" "provider" = d.field "embeddings" "provider") (part name : String) :
    c.variableFor part name = d.variableFor part name := by
  unfold variableFor
  simp only [same, embedsRemotely_congr remote]

theorem field_chosen (has : c.Has "llm") (env : Environment) (query label : String) :
    (c.chosen env).field query label =
      if query = "llm" ∧ label = "provider" then
        ((env.value? "VIBEPLAN_LLM_PROVIDER").map Json.str).getD (c.field query label)
      else if query = "llm" ∧ label = "model" then
        ((env.value? "VIBEPLAN_LLM_MODEL").map Json.str).getD (c.field query label)
      else c.field query label := by
  rw [chosen, field_setText ((setText_has ..).mpr has), field_setText has]
  by_cases isProvider : query = "llm" ∧ label = "provider"
  · obtain ⟨rfl, rfl⟩ := isProvider
    simp
  · simp only [if_neg isProvider]

theorem field_keyed (has : c.Has "llm") (embeds : c.Has "embeddings") (env : Environment)
    (query label : String) :
    (c.keyed env).field query label =
      if query = "llm" ∧ label = "api_key" then
        (((keyOf (c.field "llm" "provider")).bind env.value?).map Json.str).getD (c.field query label)
      else if query = "embeddings" ∧ label = "api_key" then
        ((if c.embedsRemotely then env.value? "OPENAI_API_KEY" else none).map Json.str).getD
          (c.field query label)
      else c.field query label := by
  rw [keyed, field_setText ((setText_has ..).mpr embeds), field_setText has]
  by_cases isKey : query = "llm" ∧ label = "api_key"
  · obtain ⟨rfl, rfl⟩ := isKey
    simp
  · simp only [if_neg isKey]

theorem chosen_has (c : Configuration) (env : Environment) (query : String) :
    (c.chosen env).Has query ↔ c.Has query := by
  rw [chosen, setText_has, setText_has]

theorem applyEnvironment_of_nameable {env : Environment} (has : c.Has "llm")
    (nameable : Nameable ((c.chosen env).field "llm" "provider")) :
    applyEnvironment env c = .ok ((c.chosen env).keyed env) := by
  have unmoved (text : Option String) :
      ((c.chosen env).setText "llm" "api_key" text).embedsRemotely = (c.chosen env).embedsRemotely :=
    embedsRemotely_congr <| by
      rw [field_setText ((chosen_has ..).mpr has), if_neg (by simp)]
  rw [applyEnvironment, ← chosen, keyVariable_of_nameable nameable, keyed]
  dsimp only [Except.mapError, bind, Except.bind]
  rw [unmoved]
  split <;> rfl

theorem applyEnvironment_of_not_nameable {env : Environment}
    (unusable : ¬ Nameable ((c.chosen env).field "llm" "provider")) :
    applyEnvironment env c = .error (.data .wrongKind) := by
  rw [applyEnvironment, ← chosen, keyVariable_of_not_nameable unusable]
  rfl

theorem field_fitDimension (has : c.Has "embeddings") (query label : String) :
    c.fitDimension.field query label =
      if (query = "embeddings" ∧ label = "dim") ∧
          c.embedsRemotely ∧ isDefaultDimension (c.field "embeddings" "dim") then .int remoteDimension
      else c.field query label := by
  rw [fitDimension]
  by_cases fits : c.embedsRemotely ∧ isDefaultDimension (c.field "embeddings" "dim")
  · rw [if_pos (by simpa using fits), field_set has]
    simp only [fits, and_true, and_self]
  · rw [if_neg (by simpa using fits), if_neg fun both => fits both.2]

theorem fieldNames_fitDimension (known : fieldNames c.sections = fieldNames defaultSections) :
    fieldNames c.fitDimension.sections = fieldNames defaultSections := by
  rw [fitDimension]
  split
  · rw [fieldNames_set (by rw [known]; decide), known]
  · exact known

def providerNamed (document : Json.Members) (env : Environment) : Json :=
  ((env.value? "VIBEPLAN_LLM_PROVIDER").map Json.str).getD (stated document "llm" "provider")

def settled (home : FilePath) (document : Json.Members) (env : Environment) : Configuration :=
  (((laid home document).chosen env).keyed env).fitDimension

theorem fieldNames_laid (home : FilePath) (document : Json.Members) :
    fieldNames (laid home document).sections = fieldNames defaultSections := by
  rw [fieldNames, fieldNames, laid, List.map_map]
  apply List.map_congr_left
  intro entry _
  simp [overlay, Function.comp_def]

theorem laid_has (home : FilePath) (document : Json.Members) {part : String}
    (known : (defaultSections.lookup part).isSome = true) : (laid home document).Has part := by
  rw [Has, laid, lookup_map_value fun part => overlay (tableOf document part), Option.isSome_map]
  exact known

theorem chosen_laid_provider (home : FilePath) (document : Json.Members) (env : Environment) :
    ((laid home document).chosen env).field "llm" "provider" = providerNamed document env := by
  rw [field_chosen (laid_has home document rfl), if_pos ⟨rfl, rfl⟩,
    field_laid home document ⟨_, rfl, by decide⟩, providerNamed]

theorem fieldNames_settled (home : FilePath) (document : Json.Members) (env : Environment) :
    fieldNames (settled home document env).sections = fieldNames defaultSections := by
  have step {c : Configuration} (same : fieldNames c.sections = fieldNames defaultSections)
      (part name : String) (text : Option String)
      (known : ∀ entry ∈ fieldNames defaultSections, entry.1 = part → name ∈ entry.2) :
      fieldNames (c.setText part name text).sections = fieldNames defaultSections := by
    rw [fieldNames_setText text (by rw [same]; exact known), same]
  apply fieldNames_fitDimension
  apply step _ _ _ _ (by decide)
  apply step _ _ _ _ (by decide)
  apply step _ _ _ _ (by decide)
  apply step _ _ _ _ (by decide)
  exact fieldNames_laid home document

theorem field_keyed_chosen (llm : c.Has "llm") (embeds : c.Has "embeddings") (env : Environment)
    (part name : String) :
    ((c.chosen env).keyed env).field part name =
      ((((c.chosen env).variableFor part name).bind env.value?).map Json.str).getD
        (c.field part name) := by
  have base := field_chosen llm env part name
  rw [← chosen_has c env] at llm embeds
  have above := field_keyed llm embeds env part name
  rw [base] at above
  unfold variableFor
  split
  · simp [above]
  · simp [above]
  · simp [above]
  · cases remote : (c.chosen env).embedsRemotely <;> simp [above, remote]
  · rename_i noProvider noModel noKey noEmbedding
    simp only [imp_false, ← not_and] at noProvider noModel noKey noEmbedding
    simp [above, noProvider, noModel, noKey, noEmbedding]

theorem settled_sourced (home : FilePath) (document : Json.Members) (env : Environment) :
    Sourced document env (settled home document env) := by
  let overlaid := (laid home document).chosen env
  have hasLaid {part : String} (known : (defaultSections.lookup part).isSome = true) :
      overlaid.Has part := (chosen_has ..).mpr (laid_has home document known)
  have has : (overlaid.keyed env).Has "embeddings" := by
    rw [keyed, setText_has, setText_has]
    exact hasLaid rfl
  have value {part name : String} (known : Known part name) :
      (overlaid.keyed env).field part name =
        (((overlaid.variableFor part name).bind env.value?).map Json.str).getD
          (stated document part name) := by
    rw [field_keyed_chosen (laid_has _ _ rfl) (laid_has _ _ rfl), field_laid home document known]
  have keepsProvider : (overlaid.keyed env).field "llm" "provider" = overlaid.field "llm" "provider" := by
    rw [field_keyed (hasLaid rfl) (hasLaid rfl), if_neg (by simp), if_neg (by simp)]
  have keepsEmbedder : (overlaid.keyed env).field "embeddings" "provider" =
      overlaid.field "embeddings" "provider" := by
    rw [field_keyed (hasLaid rfl) (hasLaid rfl), if_neg (by simp), if_neg (by simp)]
  have fits (query label : String) (other : ¬ (query = "embeddings" ∧ label = "dim")) :
      (settled home document env).field query label = (overlaid.keyed env).field query label := by
    rw [settled, field_fitDimension has, if_neg fun both => other both.1]
  have embedder := fits "embeddings" "provider" (by simp)
  refine ⟨fieldNames_settled home document env, ?_, ?_⟩
  · intro part name known other
    rw [fits part name other, value known, variableFor_congr
      ((fits _ _ (by simp)).trans keepsProvider) (embedder.trans keepsEmbedder)]
  · have plain : (overlaid.keyed env).field "embeddings" "dim" = stated document "embeddings" "dim" :=
      value ⟨_, rfl, by decide⟩
    rw [embedsRemotely_congr embedder, settled, field_fitDimension has, plain]
    simp only [and_self, true_and]

theorem ofDocument_of_nameable {document : Json.Members} {env : Environment} (tables : Tabular document)
    (home : FilePath) (nameable : Nameable (providerNamed document env)) :
    ofDocument home document env = .ok (settled home document env) := by
  rw [← chosen_laid_provider home] at nameable
  rw [ofDocument_eq tables, applyEnvironment_of_nameable (laid_has home document rfl) nameable]
  rfl

theorem ofDocument_of_not_nameable {document : Json.Members} {env : Environment}
    (tables : Tabular document) (home : FilePath) (unusable : ¬ Nameable (providerNamed document env)) :
    ofDocument home document env = .error (.data .wrongKind) := by
  rw [← chosen_laid_provider home] at unusable
  rw [ofDocument_eq tables, applyEnvironment_of_not_nameable unusable]
  rfl

theorem setText_home (c : Configuration) (part name : String) (text : Option String) :
    (c.setText part name text).home = c.home := by
  cases text with
  | none => rfl
  | some text => rfl

theorem settled_home (home : FilePath) (document : Json.Members) (env : Environment) :
    (settled home document env).home = home := by
  have fitted (c : Configuration) : c.fitDimension.home = c.home := by
    rw [fitDimension]
    split <;> rfl
  rw [settled, fitted, keyed, setText_home, setText_home, chosen, setText_home, setText_home, laid]

theorem laid_congr {document other : Json.Members}
    (same : ∀ part name, Known part name →
      (tableOf other part).lookup name = (tableOf document part).lookup name) (home : FilePath) :
    laid home other = laid home document := by
  have found : ∀ entry ∈ fieldNames defaultSections,
      (fieldNames defaultSections).lookup entry.1 = some entry.2 := by decide
  rw [laid, laid]
  congr 1
  apply List.map_congr_left
  intro entry member
  congr 1
  apply List.map_congr_left
  rintro ⟨name, default⟩ among
  have named := found _ (List.mem_map_of_mem (f := fun entry => (entry.1, entry.2.map (·.1))) member)
  have known : Known entry.1 name := ⟨_, named, List.mem_map_of_mem among⟩
  simp only [same _ _ known]

/-- Every field of a configuration that is read has its value from the variable that goes before the
document, else from the document, else from the defaults; only the dimension of remote embeddings is
replaced where it is the default of the local ones, whether or not the document gives it. A provider that
is a list or a table cannot be looked up. Nothing depends on the unknown parts of a document. -/
theorem ofDocument_sourced {document : Json.Members} (tables : Tabular document) (home : FilePath)
    (env : Environment) :
    (Nameable (providerNamed document env) →
      ∃ c, ofDocument home document env = .ok c ∧ c.home = home ∧ Sourced document env c) ∧
    (¬ Nameable (providerNamed document env) →
      ofDocument home document env = .error (.data .wrongKind)) ∧
    (∀ other, Tabular other →
      (∀ part name, Known part name →
        (tableOf other part).lookup name = (tableOf document part).lookup name) →
      ofDocument home other env = ofDocument home document env) ∧
    ∀ file text, readDocument file text = .ok document →
      load file text env = ofDocument file.parent document env := by
  refine ⟨?_, ofDocument_of_not_nameable tables home, ?_, ?_⟩
  · intro nameable
    exact ⟨_, ofDocument_of_nameable tables home nameable, settled_home .., settled_sourced ..⟩
  · intro other otherTables same
    rw [ofDocument_eq tables, ofDocument_eq otherTables, laid_congr same]
  · intro file text read
    rw [load, read]
    rfl

def twoProviders : Json.Members :=
  [("llm", .obj [("provider", .str "openai"), ("api_key", .str "from-file")]),
    ("embeddings", .obj [("provider", .str "openai"), ("colour", .str "red")]), ("plugins", .int 3)]

theorem twoProviders_tabular : Tabular twoProviders := by
  apply tabular_of_members
  simp only [twoProviders, List.forall_mem_cons]
  exact ⟨fun _ => ⟨_, rfl⟩, fun _ => ⟨_, rfl⟩, fun known => absurd known (by decide), nofun⟩

theorem ofDocument_sourced_twoProviders :
    Tabular twoProviders ∧ ∃ c, ofDocument ⟨"/", ["srv"]⟩ twoProviders
        [("VIBEPLAN_LLM_PROVIDER", "groq"), ("GROQ_API_KEY", "key"), ("OPENAI_API_KEY", "")] = .ok c ∧
      c.field "llm" "provider" = .str "groq" ∧ c.field "llm" "api_key" = .str "key" ∧
      c.field "embeddings" "dim" = .int 1536 ∧
      Sourced twoProviders
        [("VIBEPLAN_LLM_PROVIDER", "groq"), ("GROQ_API_KEY", "key"), ("OPENAI_API_KEY", "")] c := by
  obtain ⟨c, isOk, -, sourced⟩ :=
    (ofDocument_sourced twoProviders_tabular ⟨"/", ["srv"]⟩
      [("VIBEPLAN_LLM_PROVIDER", "groq"), ("GROQ_API_KEY", "key"), ("OPENAI_API_KEY", "")]).1 trivial
  have provider : c.field "llm" "provider" = .str "groq" :=
    (sourced.values _ _ ⟨_, rfl, by decide⟩ (by decide)).trans rfl
  have embedder : c.field "embeddings" "provider" = .str "openai" :=
    (sourced.values _ _ ⟨_, rfl, by decide⟩ (by decide)).trans rfl
  have key : c.variableFor "llm" "api_key" = some "GROQ_API_KEY" := by
    rw [variableFor, provider]
    rfl
  refine ⟨twoProviders_tabular, c, isOk, provider, ?_, ?_, sourced⟩
  · rw [sourced.values _ _ ⟨_, rfl, by decide⟩ (by decide), key]
    rfl
  · rw [sourced.dimension, embedsRemotely, embedder]
    rfl

def fewDimensions : Json.Members :=
  [("embeddings", .obj [("provider", .str "openai"), ("dim", .int 256)])]

/-- No variable goes before the dimension and the document gives it, yet the configuration has another. -/
theorem fewDimensions_replaced :
    Tabular fewDimensions ∧ (tableOf fewDimensions "embeddings").lookup "dim" = some (.int 256) ∧
      ∃ c, ofDocument ⟨"/", ["srv"]⟩ fewDimensions [] = .ok c ∧
        c.variableFor "embeddings" "dim" = none ∧ c.field "embeddings" "dim" = .int 1536 := by
  have tables : Tabular fewDimensions := by
    apply tabular_of_members
    simp only [fewDimensions, List.forall_mem_cons]
    exact ⟨fun _ => ⟨_, rfl⟩, nofun⟩
  have sourced := settled_sourced ⟨"/", ["srv"]⟩ fewDimensions []
  have embedder : (settled ⟨"/", ["srv"]⟩ fewDimensions []).field "embeddings" "provider" =
      .str "openai" := (sourced.values _ _ ⟨_, rfl, by decide⟩ (by decide)).trans rfl
  refine ⟨tables, rfl, _, ofDocument_of_nameable tables _ trivial, rfl, ?_⟩
  rw [sourced.dimension, embedsRemotely, embedder]
  rfl

end Configuration

end Groundwork
