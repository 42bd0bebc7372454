import Groundwork.Text.Letter
import Groundwork.Text.Basic

/-!
What a query asks for. A query is widened by terms that go with its kind and with words that occur in
it; it is technical if its kind is or a technical term occurs in it.
-/

namespace Groundwork.Retrieval

open Text

def kindTerms : String → List String
  | "improvement" =>
    ["performance", "optimization", "error handling", "code quality", "best practices"]
  | "feature" => ["implementation", "component", "service", "integration", "existing patterns"]
  | "debug" => ["error", "exception", "bug", "fix", "try catch", "validation"]
  | "refactor" =>
    ["code organization", "structure", "duplicate code", "complex functions", "coupling"]
  | _ => []

structure Expansion where
  triggers : List String
  terms : List String

def expansions : List Expansion :=
  [⟨["schedul"], ["scheduler", "queue", "job", "cron", "worker", "task", "timer"]⟩,
    ⟨["process"], ["process", "worker", "pipeline", "handler", "executor"]⟩,
    ⟨["api", "endpoint", "route"],
      ["api", "endpoint", "route", "controller", "request", "response"]⟩,
    ⟨["database", "db ", "sql", "query"],
      ["database", "model", "schema", "query", "repository", "orm"]⟩]

def addedTerms (prompt kind : String) : List String :=
  kindTerms kind ++
    (expansions.filter fun e => containsAny (lower prompt) e.triggers).flatMap (·.terms)

def expand (prompt kind : String) : String := join " " (prompt :: addedTerms prompt kind)

def technicalTerms : List String :=
  ["function", "class", "method", "api", "bug", "error", "fix", "implement", "code", "refactor",
    "performance", "database", "endpoint", "component", "service", "module", "test", "async",
    "query", "schema"]

def isTechnical (prompt kind : String) : Bool :=
  ["debug", "feature", "refactor"].contains kind || containsAny (lower prompt) technicalTerms

def concernsScheduling (prompt : String) : Bool :=
  containsAny (lower prompt) ["schedul", "process"]

def isDocumentation (path : String) : Bool :=
  let lowered := lower path
  endsWithAny lowered [".md", ".mdx", ".txt", ".rst"] ||
    containsAny lowered ["readme", "changelog", "license", "docs/", "contributing"]

def isTest (path : String) : Bool := containsAny (lower path) ["test", "spec"]

end Groundwork.Retrieval
