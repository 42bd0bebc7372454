import Groundwork.Planning.Expansion
import Groundwork.Planning.Planner
import Groundwork.Proofs.Text.Pieces

/-!
What comes of asking a provider. Its text is stripped and not blank, and its failures are those that the
stages make up for, with one exception: an answer of another shape, of which a member is asked although it
has none, is not noticed to be malformed.
-/

namespace Groundwork.Completion

variable {σ : Type} {p : Provider} {c : Call} {outcome : HttpOutcome} {answer message content : Json}
  {failure : Failure}

inductive Message (p : Provider) : Json → Json → Prop
  | only {members : Json.Members} {message : Json} (isLocal : p.service = .ollama)
      (found : members.lookup "message" = some message) (given : message.truthy = true) :
      Message p (.obj members) message
  | first {members choice : Json.Members} {others : List Json} {message : Json}
      (remote : p.service ≠ .ollama)
      (choices : members.lookup "choices" = some (.arr (.obj choice :: others)))
      (found : choice.lookup "message" = some message) : Message p (.obj members) message

inductive Misshapen (p : Provider) : Json → Prop
  | answer {answer : Json} (isLocal : p.service = .ollama) (odd : ∀ members, answer ≠ .obj members) :
      Misshapen p answer
  | message {answer message : Json} (found : Message p answer message)
      (odd : ∀ members, message ≠ .obj members) : Misshapen p answer
  | content {answer content : Json} {members : Json.Members} (found : Message p answer (.obj members))
      (named : members.lookup "content" = some content) (given : content.truthy = true)
      (odd : ∀ text, content ≠ .str text) : Misshapen p answer

def Speaks (p : Provider) (answer : Json) (text : String) : Prop :=
  ∃ members, Message p answer (.obj members) ∧ members.lookup "content" = some (.str text)

section Documents

def Carries (outcome : HttpOutcome) (answer : Json) : Prop :=
  ∃ status body, outcome = .answered status body ∧ status < 400 ∧ Json.read body.toList = .ok answer

theorem document_iff : p.document outcome = .ok answer ↔ Carries outcome answer := by
  cases outcome with
  | unreachable reason => simp [Provider.document, Carries]
  | broken failure => simp [Provider.document, Carries]
  | answered status body =>
      by_cases accepted : status < 400
      · have unlimited : Provider.isRateLimit status body = false := by
          have other : status ≠ 429 := by omega
          simp [Provider.isRateLimit, other, Int.not_le.mpr accepted]
        simp only [Provider.document, unlimited, Bool.false_eq_true, if_false,
          if_neg (Int.not_le.mpr accepted), Carries]
        cases parsed : Json.read body.toList with
        | ok value => simp [accepted, parsed]
        | error fault => simp [parsed]
      · have refused : 400 ≤ status := by omega
        constructor
        · intro found
          simp only [Provider.document, if_pos refused] at found
          split at found <;> simp at found
        · rintro ⟨status, body, same, small, _⟩
          cases same
          exact absurd small accepted

theorem document_error (failed : p.document outcome = .error failure) :
    failure.isCompletion = true ∨ outcome = .broken failure := by
  cases outcome with
  | unreachable reason =>
      cases failed
      exact Or.inl rfl
  | broken other =>
      cases failed
      exact Or.inr rfl
  | answered status body =>
      left
      simp only [Provider.document] at failed
      split at failed
      · cases failed
        rfl
      · split at failed
        · cases failed
          rfl
        · split at failed <;> cases failed
          rfl

end Documents

section Contents

theorem content_local (isLocal : p.service = .ollama) (answer : Json) :
    p.content answer = Provider.onlyMessage answer := by
  rw [Provider.content, isLocal]

theorem content_remote (remote : p.service ≠ .ollama) (answer : Json) :
    p.content answer = Provider.firstChoice answer := by
  rw [Provider.content]
  split
  · rename_i isLocal
    exact absurd isLocal remote
  · rfl

theorem Message.content_eq (found : Message p answer message) :
    p.content answer = Provider.contentOf message := by
  cases found with
  | only isLocal found given =>
      rw [content_local isLocal, Provider.onlyMessage]
      simp [found, given]
  | first remote choices found =>
      rw [content_remote remote, Provider.firstChoice]
      simp [Json.get?, choices, found]

theorem content_of_noObject (isLocal : p.service = .ollama)
    (odd : ∀ members, answer ≠ .obj members) : p.content answer = .error (.data .noMember) := by
  rw [content_local isLocal]
  cases answer with
  | obj members => exact absurd rfl (odd members)
  | null | bool | int | float | str | arr => rfl

theorem contentOf_of_noObject (odd : ∀ members, message ≠ .obj members) :
    Provider.contentOf message = .error (.data .noMember) := by
  cases message with
  | obj members => exact absurd rfl (odd members)
  | null | bool | int | float | str | arr => rfl

theorem content_of_noMessage (shaped : p.service = .ollama → ∃ members, answer = .obj members)
    (none : ∀ message, ¬ Message p answer message) :
    p.content answer = .error (.generation .malformedCompletion) ∨ p.content answer = .ok .null := by
  by_cases isLocal : p.service = .ollama
  · right
    obtain ⟨members, rfl⟩ := shaped isLocal
    have nothing : ((members.lookup "message").getD .null).truthy = false := by
      cases found : members.lookup "message" with
      | none => rfl
      | some message =>
          rw [Option.getD_some, ← Bool.not_eq_true]
          exact fun given => none message (.only isLocal found given)
    rw [content_local isLocal]
    simp [Provider.onlyMessage, nothing]
  · left
    rw [content_remote isLocal]
    unfold Provider.firstChoice
    split
    · rename_i choice others choices
      split
      · rename_i message found
        cases answer with
        | obj members =>
            cases choice with
            | obj choice => exact absurd (.first isLocal choices found) (none message)
            | null | bool | int | float | str | arr => simp [Json.get?] at found
        | null | bool | int | float | str | arr => simp [Json.get?] at choices
      · rfl
    · rfl

theorem textOf_str (s : String) : textOf (.str s) =
    if Text.strip s = "" then .error (.generation .noContent) else .ok (Text.strip s) := by
  simp only [textOf, String.isEmpty_iff]

theorem textOf_other (odd : ∀ text, content ≠ .str text) : textOf content =
    if content.truthy then .error (.data .noMember) else .error (.generation .noContent) := by
  cases content with
  | str s => exact absurd rfl (odd s)
  | null | bool | int | float | arr | obj => rfl

def spoken (p : Provider) (answer : Json) : Except Failure String := p.content answer >>= textOf

theorem Speaks.spoken_eq {text : String} (speaks : Speaks p answer text) : spoken p answer =
    if Text.strip text = "" then .error (.generation .noContent) else .ok (Text.strip text) := by
  obtain ⟨members, found, named⟩ := speaks
  rw [spoken, found.content_eq, Provider.contentOf, named]
  exact (pure_bind (Json.str text) textOf).trans (textOf_str text)

theorem Misshapen.spoken_eq (odd : Misshapen p answer) :
    spoken p answer = .error (.data .noMember) := by
  cases odd with
  | answer isLocal odd =>
      rw [spoken, content_of_noObject isLocal odd]
      rfl
  | message found odd =>
      rw [spoken, found.content_eq, contentOf_of_noObject odd]
      rfl
  | content found named given odd =>
      rw [spoken, found.content_eq, Provider.contentOf, named]
      exact (textOf_other odd).trans (if_pos given)

theorem spoken_useless (silent : ∀ text, ¬ Speaks p answer text) (even : ¬ Misshapen p answer) :
    ∃ fault, spoken p answer = .error (.generation fault) := by
  by_cases has : ∃ message, Message p answer message
  · obtain ⟨message, found⟩ := has
    by_cases object : ∃ members, message = .obj members
    · obtain ⟨members, rfl⟩ := object
      have noText (text : String) : (members.lookup "content").getD .null ≠ .str text := by
        intro same
        cases named : members.lookup "content" with
        | none => simp [named] at same
        | some content =>
            obtain rfl : content = .str text := by simpa [named] using same
            exact silent text ⟨members, found, named⟩
      have falsy : ((members.lookup "content").getD .null).truthy = false := by
        cases named : members.lookup "content" with
        | none => rfl
        | some content =>
            rw [named, Option.getD_some] at noText
            rw [Option.getD_some, ← Bool.not_eq_true]
            exact fun given => even (.content found named given noText)
      refine ⟨.noContent, ?_⟩
      rw [spoken, found.content_eq, Provider.contentOf]
      refine (textOf_other noText).trans ?_
      rw [falsy]
      rfl
    · exact absurd (.message found (not_exists.mp object)) even
  · have shaped (isLocal : p.service = .ollama) : ∃ members, answer = .obj members := by
      by_contra odd
      exact even (.answer isLocal (not_exists.mp odd))
    rcases content_of_noMessage shaped (not_exists.mp has) with made | made
    · exact ⟨.malformedCompletion, by rw [spoken, made]; rfl⟩
    · exact ⟨.noContent, by rw [spoken, made]; rfl⟩

end Contents

section Calls

variable {send : HttpRequest → StateM σ HttpOutcome} {world : σ} {result : Except Failure String}

def Keyed (p : Provider) : Prop := p.service = .ollama ∨ p.apiKey ≠ ""

theorem request_of_keyed (keyed : Keyed p) (c : Call) : ∃ request, p.request c = .ok request := by
  cases service : p.service with
  | ollama => exact ⟨p.messageRequest c, by simp only [Provider.request, service]⟩
  | groq | openAi =>
      have key : p.apiKey.isEmpty = false := by
        rcases keyed with isLocal | some
        · simp [service] at isLocal
        · simpa using some
      exact ⟨p.choicesRequest c, by simp [Provider.request, service, key]⟩

theorem request_of_not_keyed (unkeyed : ¬ Keyed p) (c : Call) :
    p.request c = .error (.provider (.noKey p.party)) := by
  simp only [Keyed, not_or, not_not] at unkeyed
  obtain ⟨remote, none⟩ := unkeyed
  cases service : p.service with
  | ollama => exact absurd service remote
  | groq | openAi => simp [Provider.request, service, none]

theorem answer_eq (p : Provider) (outcome : HttpOutcome) :
    p.answer outcome = p.document outcome >>= spoken p := by
  rw [Provider.answer]
  cases p.document outcome <;> rfl

theorem complete_of_keyed (keyed : Keyed p)
    (met : ∀ request, p.request c = .ok request → ((send request).run world).1 = outcome) :
    ((p.complete send c).run world).1 = p.document outcome >>= spoken p := by
  obtain ⟨request, asked⟩ := request_of_keyed keyed c
  rw [← answer_eq, ← met request asked, Provider.complete]
  simp only [asked]
  rfl

theorem complete_of_not_keyed (unkeyed : ¬ Keyed p) :
    ((p.complete send c).run world).1 = .error (.provider (.noKey p.party)) := by
  rw [Provider.complete]
  simp only [request_of_not_keyed unkeyed]
  rfl

theorem complete_cases (p : Provider) (outcome : HttpOutcome) :
    (∃ answer text, Carries outcome answer ∧ Speaks p answer text ∧ p.document outcome >>= spoken p =
      if Text.strip text = "" then .error (.generation .noContent) else .ok (Text.strip text)) ∨
    (∃ answer, Carries outcome answer ∧ Misshapen p answer ∧
      p.document outcome >>= spoken p = .error (.data .noMember)) ∨
    ∃ failure, (failure.isCompletion = true ∨ outcome = .broken failure) ∧
      p.document outcome >>= spoken p = .error failure := by
  cases found : p.document outcome with
  | error failure => exact Or.inr (Or.inr ⟨failure, document_error found, rfl⟩)
  | ok answer =>
      have carries := document_iff.mp found
      by_cases speaks : ∃ text, Speaks p answer text
      · obtain ⟨text, speaks⟩ := speaks
        exact Or.inl ⟨answer, text, carries, speaks, speaks.spoken_eq⟩
      · by_cases odd : Misshapen p answer
        · exact Or.inr (Or.inl ⟨answer, carries, odd, odd.spoken_eq⟩)
        · obtain ⟨fault, useless⟩ := spoken_useless (not_exists.mp speaks) odd
          exact Or.inr (Or.inr ⟨_, Or.inl rfl, useless⟩)

theorem complete_speaks {answer : Json} {text : String} (keyed : Keyed p)
    (met : ∀ request, p.request c = .ok request → ((send request).run world).1 = outcome)
    (carries : Carries outcome answer) (speaks : Speaks p answer text) :
    ((p.complete send c).run world).1 =
      if Text.strip text = "" then .error (.generation .noContent) else .ok (Text.strip text) := by
  rw [complete_of_keyed keyed met, document_iff.mpr carries, ← speaks.spoken_eq]
  rfl

theorem complete_misshapen {answer : Json} (keyed : Keyed p)
    (met : ∀ request, p.request c = .ok request → ((send request).run world).1 = outcome)
    (carries : Carries outcome answer) (odd : Misshapen p answer) :
    ((p.complete send c).run world).1 = .error (.data .noMember) := by
  rw [complete_of_keyed keyed met, document_iff.mpr carries, ← odd.spoken_eq]
  rfl

theorem complete_eq_ok_iff {text : String}
    (met : ∀ request, p.request c = .ok request → ((send request).run world).1 = outcome) :
    ((p.complete send c).run world).1 = .ok text ↔ Keyed p ∧ ∃ answer said, Carries outcome answer ∧
      Speaks p answer said ∧ Text.strip said ≠ "" ∧ text = Text.strip said := by
  constructor
  · intro ok
    by_cases keyed : Keyed p
    · refine ⟨keyed, ?_⟩
      rw [complete_of_keyed keyed met] at ok
      rcases complete_cases p outcome with ⟨answer, said, carries, speaks, made⟩ | ⟨_, _, _, made⟩ |
        ⟨_, _, made⟩
      · rw [made] at ok
        split at ok
        · cases ok
        · rename_i some
          cases ok
          exact ⟨answer, said, carries, speaks, some, rfl⟩
      · simp [made] at ok
      · simp [made] at ok
    · rw [complete_of_not_keyed keyed] at ok
      cases ok
  · rintro ⟨keyed, answer, said, carries, speaks, some, rfl⟩
    rw [complete_speaks keyed met carries speaks, if_neg some]

theorem complete_error {failure : Failure}
    (met : ∀ request, p.request c = .ok request → ((send request).run world).1 = outcome)
    (failed : ((p.complete send c).run world).1 = .error failure) :
    failure.isCompletion = true ∨ outcome = .broken failure ∨
      failure = .data .noMember ∧ ∃ answer, Carries outcome answer ∧ Misshapen p answer := by
  by_cases keyed : Keyed p
  · rw [complete_of_keyed keyed met] at failed
    rcases complete_cases p outcome with ⟨_, _, _, _, made⟩ | ⟨answer, carries, odd, made⟩ |
      ⟨other, expected, made⟩
    · rw [made] at failed
      split at failed <;> cases failed
      exact Or.inl rfl
    · rw [made] at failed
      cases failed
      exact Or.inr (Or.inr ⟨rfl, answer, carries, odd⟩)
    · rw [made] at failed
      cases failed
      exact expected.imp_right Or.inl
  · rw [complete_of_not_keyed keyed] at failed
    cases failed
    exact Or.inl rfl

/-- A provider's text is that of the message, stripped, and is not blank. Its failures are made up for by
the rules and told to the public as those of a plan, but for a misshapen answer and for an outcome that has
nothing to do with the provider. -/
theorem complete_noticed
    (met : ∀ request, p.request c = .ok request → ((send request).run world).1 = outcome)
    (returned : ((p.complete send c).run world).1 = result) :
    (∀ text, result = .ok text ↔ Keyed p ∧ ∃ answer said, Carries outcome answer ∧
      Speaks p answer said ∧ Text.strip said ≠ "" ∧ text = Text.strip said) ∧
    (∀ text, result = .ok text → text ≠ "" ∧ Text.strip text = text) ∧
    (∀ failure, result = .error failure → failure.isCompletion = true ∨ outcome = .broken failure ∨
      failure = .data .noMember ∧ ∃ answer, Carries outcome answer ∧ Misshapen p answer) ∧
    (Keyed p → ∀ answer, Carries outcome answer → Misshapen p answer →
      result = .error (.data .noMember)) ∧
    ∀ failure, result = .error failure → failure.isCompletion = true →
      Planning.planOfOutcome result = .error (.planning .unusablePlan) ∧
      ∀ settings prompt context analysis, settings.fallbackToRules = true →
        Planning.recover settings prompt context analysis
            (result.bind (Planning.phasesOfText settings context)) =
          Planning.rulePhases prompt context analysis := by
  subst returned
  refine ⟨fun text => complete_eq_ok_iff met, ?_, fun failure => complete_error met, ?_, ?_⟩
  · intro text ok
    obtain ⟨_, _, said, _, _, some, rfl⟩ := (complete_eq_ok_iff met).mp ok
    exact ⟨some, Text.strip_strip said⟩
  · intro keyed answer carries odd
    exact complete_misshapen keyed met carries odd
  · intro failure failed seen
    constructor
    · simp only [Planning.planOfOutcome, failed, Except.bind, seen, if_true]
    · intro settings prompt context analysis fallback
      simp [Planning.recover, Except.bind, failed, seen, fallback]

def openProvider : Provider :=
  { service := .openAi, model := .str "m", endpoint := "https://llm", apiKey := "k", timeout := .int 60 }

def greet : Call := { system := "sys", user := "hello" }

def answeredWith (document : String) : Except Failure String :=
  ((openProvider.complete Wire.send greet).run ⟨[.answered 200 document], []⟩).1

def greeting : String :=
  "\x7b\"choices\":[\x7b\"message\":\x7b\"content\":\" Hi\\n\"\x7d\x7d]\x7d"

theorem complete_noticed_greeting : answeredWith greeting = .ok "Hi" ∧
    ∃ answer said, Carries (.answered 200 greeting) answer ∧ Speaks openProvider answer said ∧
      Text.strip said = "Hi" := by
  let wire : Wire := ⟨[.answered 200 greeting], []⟩
  have met : ∀ request, openProvider.request greet = .ok request →
      ((Wire.send request).run wire).1 = .answered 200 greeting := fun _ _ => rfl
  have returned : ((openProvider.complete Wire.send greet).run wire).1 = .ok "Hi" := by
    decide +kernel
  obtain ⟨heard, _⟩ := complete_noticed met returned
  obtain ⟨_, answer, said, carries, speaks, _, same⟩ := (heard "Hi").mp rfl
  exact ⟨returned, answer, said, carries, speaks, same.symm⟩

/-- A message that is a text, and no object with one, is asked for its content all the same. -/
theorem textMessage_unnoticed :
    answeredWith "\x7b\"choices\":[\x7b\"message\":\"hi\"\x7d]\x7d" = .error (.data .noMember) ∧
      (Failure.data .noMember).isCompletion = false := by
  decide +kernel

end Calls

end Groundwork.Completion
