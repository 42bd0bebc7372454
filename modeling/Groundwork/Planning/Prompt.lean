import Groundwork.Json.Value
import Groundwork.Text.Basic

/-!
Classification of a goal. The words that occur in it decide what kind of goal it is, which areas it is
about and how hard it seems.
-/

namespace Groundwork

structure PromptAnalysis where
  kind : String
  intent : String
  areas : List String := []
  complexity : String := "medium"
  keywords : List String := []
  deriving DecidableEq, Repr

def PromptAnalysis.toJson (a : PromptAnalysis) : Json :=
  .obj [("queryType", .str a.kind), ("intent", .str a.intent), ("targetAreas", .strings a.areas),
    ("complexity", .str a.complexity), ("keywords", .strings a.keywords)]

namespace Planning

open Text

def knownKeywords : List String :=
  ["authentication", "auth", "login", "signup", "registration", "form", "validation",
    "database", "api", "endpoint", "service", "component", "module", "function", "class",
    "method", "variable", "performance", "optimization", "security", "testing", "bug",
    "error", "exception", "refactor", "improve", "enhance", "frontend", "backend", "ui",
    "interface", "user", "admin", "dashboard", "notification", "email", "payment",
    "checkout", "cart", "product", "order"]

def keywordsOf (prompt : String) : List String := knownKeywords.filter (contains (lower prompt))

/-- Kinds with the words of which one decides for them, in this order. -/
def kindRules : List (String × List String) :=
  [("debug", ["fix", "bug", "error"]), ("feature", ["add", "implement", "create"]),
    ("refactor", ["refactor", "restructure", "reorganize"])]

def specificKeywords : List String := ["login", "signup", "auth", "form"]

def kindOf (prompt : String) (keywords : List String) : String :=
  match kindRules.find? fun (_, words) => containsAny (lower prompt) words with
  | some (kind, _) => kind
  | none =>
    if contains (lower prompt) "specific" || keywords.any specificKeywords.contains then "specific"
    else "improvement"

def areaRules : List (String × List String) :=
  [("authentication", ["auth", "login", "signup"]),
    ("form handling", ["form", "input", "validation"]),
    ("backend services", ["api", "endpoint", "service"]),
    ("user interface", ["ui", "frontend", "component"])]

def maxAreas : Nat := 5

def areasOf (prompt : String) (keywords : List String) : List String :=
  let named := (areaRules.filter fun (_, words) => containsAny (lower prompt) words).map (·.1)
  (distinct (keywords ++ named)).take maxAreas

def intentOf : String → String
  | "specific" => "Address specific functionality or issue"
  | "refactor" => "Restructure and organize codebase"
  | "debug" => "Identify and fix bugs or errors"
  | "feature" => "Implement new functionality"
  | _ => "Enhance and optimize existing code"

def complexityOf (prompt : String) : String :=
  if containsAny (lower prompt) ["simple", "quick", "small"] then "low"
  else if containsAny (lower prompt) ["complex", "major", "entire"] then "high"
  else "medium"

def analyzePrompt (prompt : String) : PromptAnalysis :=
  let lowered := lower prompt
  let keywords := keywordsOf lowered
  let kind := kindOf lowered keywords
  { kind := kind
    intent := intentOf kind ++ ": " ++ prompt
    areas := areasOf lowered keywords
    complexity := complexityOf prompt
    keywords := keywords }

end Planning

end Groundwork
