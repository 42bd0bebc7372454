import Groundwork.Command.Markup
import Groundwork.Json.Writer

/-!
What is shown on a screen: lines, titled panels and tables. Their texts may hold style tags.
-/

namespace Groundwork.Command

inductive Block where
  | line (text : String)
  | styled (text : String)
  | panel (title body : String)
  | table (title : Option String) (columns : List String) (rows : List (List String))
  | document (value : Json)

namespace Block

def ofLines (lines : List String) : String := Text.join "" (lines.map (· ++ "\n"))

def text? : Block → Option String
  | line text => some (ofLines [text])
  | styled text => (Markup.plain? text).map fun s => ofLines [s]
  | panel title body => do return ofLines [← Markup.plain? title, ← Markup.plain? body]
  | table title columns rows => do
    let head ← title.toList.mapM Markup.plain?
    let cells ← (columns :: rows).mapM (·.mapM Markup.plain?)
    return ofLines (head ++ cells.map (Text.join "  "))
  | document value => some (ofLines [value.indented 0])

end Block

end Groundwork.Command
