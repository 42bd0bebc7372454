import Groundwork.FilePath

/-!
What a file's suffix says about it: its language, the grammar that reads it, and the names used for
it in descriptions.
-/

namespace Groundwork

inductive Grammar where
  | typescript
  | tsx
  | javascript
  | python
  deriving DecidableEq, Repr

namespace Grammar

def name : Grammar → String
  | typescript => "typescript"
  | tsx => "tsx"
  | javascript => "javascript"
  | python => "python"

def ofName? (s : String) : Option Grammar :=
  [typescript, tsx, javascript, python].find? (·.name == s)

def bySuffix : List (String × Grammar) :=
  [(".ts", typescript), (".tsx", tsx), (".js", javascript), (".jsx", javascript),
    (".mjs", javascript), (".cjs", javascript), (".py", python)]

def ofPath? (path : String) : Option Grammar := bySuffix.lookup (suffixOf path)

end Grammar

namespace Language

def bySuffix : List (String × String) :=
  [(".js", "javascript"), (".jsx", "javascript"), (".mjs", "javascript"), (".cjs", "javascript"),
    (".ts", "typescript"), (".tsx", "typescript"), (".py", "python"), (".java", "java"),
    (".go", "go"), (".rb", "ruby"), (".php", "php"), (".cpp", "cpp"), (".c", "c"),
    (".cs", "csharp"), (".swift", "swift"), (".kt", "kotlin"), (".rs", "rust"), (".dart", "dart"),
    (".scala", "scala"), (".html", "html"), (".css", "css"), (".scss", "scss"), (".json", "json"),
    (".yaml", "yaml"), (".yml", "yaml"), (".md", "markdown")]

def ofPath (path : String) : String := (bySuffix.lookup (suffixOf path)).getD "unknown"

def sourceNames : List (String × String) :=
  [("java", "Java"), ("go", "Go"), ("ruby", "Ruby"), ("php", "PHP"), ("cpp", "C++"), ("c", "C"),
    ("csharp", "C#"), ("swift", "Swift"), ("kotlin", "Kotlin"), ("rust", "Rust"),
    ("dart", "Dart"), ("scala", "Scala")]

def describe (path : String) : String :=
  let language := ofPath path
  if language == "json" then "JSON configuration or data file"
  else if language == "markdown" then "Markdown documentation file"
  else if language == "yaml" then "YAML configuration file"
  else match sourceNames.lookup language with
    | some name => name ++ " source file"
    | none => "Non-code file"

def displayNames : List (String × String) :=
  [(".ts", "TypeScript"), (".tsx", "TypeScript React"), (".js", "JavaScript"),
    (".jsx", "JavaScript React"), (".mjs", "JavaScript"), (".cjs", "JavaScript"),
    (".py", "Python"), (".java", "Java"), (".go", "Go"), (".rb", "Ruby"), (".php", "PHP"),
    (".rs", "Rust"), (".cs", "C#"), (".cpp", "C++"), (".c", "C"), (".swift", "Swift"),
    (".kt", "Kotlin"), (".dart", "Dart"), (".scala", "Scala")]

def displayName (path : String) : String :=
  let suffix := suffixOf path
  match displayNames.lookup suffix with
  | some name => name
  | none =>
    let bare := Text.upper (String.ofList (suffix.toList.dropWhile (· == '.')))
    if bare.isEmpty then "Unknown" else bare

end Language

def isCodeFile (path : String) : Bool := (Grammar.ofPath? path).isSome

end Groundwork
