import Groundwork.Language
import Groundwork.Source.Offside.Module
import Groundwork.Source.Script.Module

/-!
The parser of the program, with all grammars at hand.
-/

namespace Groundwork

def Grammar.read (grammar : Grammar) (text : String) : Option Source.Node :=
  match grammar with
  | typescript => some (Source.Script.Reader.treeOf ⟨true, false⟩ text.toList)
  | tsx => some (Source.Script.Reader.treeOf ⟨true, true⟩ text.toList)
  | javascript => some (Source.Script.Reader.treeOf ⟨false, true⟩ text.toList)
  | python => some (Source.Offside.Reader.treeOf text.toList)

end Groundwork
