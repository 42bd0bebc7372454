import Groundwork.Enrichment
import Groundwork.Source.Offside.Extraction
import Groundwork.Source.Script.Extraction

/-!
From a path and a text to a base record. A suffix without grammar gets a fixed description. Trees come
from a parser, which has none if its grammar is not at hand or the text cannot be parsed.
-/

namespace Groundwork

abbrev Parser := Grammar → String → Option Source.Node

def Grammar.outline (grammar : Grammar) (root : Source.Node) : Source.Outline :=
  match grammar with
  | typescript => Source.Script.outlineOf root
  | tsx => Source.Script.outlineOf root
  | javascript => Source.Script.outlineOf root
  | python => Source.Offside.outlineOf root

namespace FileRecord

def withOutline (o : Source.Outline) (r : FileRecord) : FileRecord :=
  { r with
    imports := o.imports
    exports := o.exports
    functions := o.functions
    classes := o.classes
    variableNames := o.variableNames
    description := o.describe }

def analyze (parse : Parser) (path text : String) (sizeBytes : Nat) (lastModified : String) :
    FileRecord :=
  let record : FileRecord :=
    { path
      language := Language.ofPath path
      linesOfCode := Text.countLines text
      sizeBytes
      lastModified
      content := text }
  match Grammar.ofPath? path with
  | none => { record with description := Language.describe path }
  | some grammar =>
    match parse grammar text with
    | some root => record.withOutline (grammar.outline root)
    | none => { record with description := unparsedDescription }

end FileRecord

end Groundwork
