import Groundwork.Failure

/-!
Names of tables. A namespace is known to the store by a table name, in which every character that is
not allowed has become an underscore.
-/

namespace Groundwork.Store

open Text

def infoTable : String := "_vibeplan_index"

def isNameChar (c : Char) : Bool :=
  isAsciiLetter c || isAsciiDigit c || c == '_' || c == '.' || c == '-'

def cleanName (nspace : String) : String :=
  String.ofList ((strip nspace).toList.map fun c => if isNameChar c then c else '_')

def tableName (nspace : String) : Except Failure String :=
  let cleaned := cleanName nspace
  if cleaned.isEmpty then .error (.store .emptyNamespace) else .ok cleaned

end Groundwork.Store
