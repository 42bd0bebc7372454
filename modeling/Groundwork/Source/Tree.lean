import Groundwork.Text.Basic

/-!
Token trees: the tokens of a source text with everything between two brackets gathered under one
node. A tree knows where in the text it stands and whether a line break comes before it, so that a
piece of the source can be cut out as written.
-/

namespace Groundwork.Source

inductive TokenKind where
  | word
  | number
  | string
  | regex
  | punct
  deriving DecidableEq, Repr

/-- What encloses a group: brackets, a template with its substitutions, or a markup element. -/
inductive Enclosure where
  | paren
  | bracket
  | brace
  | template
  | markup
  deriving DecidableEq, Repr

structure Span where
  start : Nat
  stop : Nat
  deriving DecidableEq, Repr

inductive Tree where
  | token (kind : TokenKind) (text : String) (span : Span) (onNewLine : Bool)
  | group (enclosure : Enclosure) (children : List Tree) (span : Span) (onNewLine : Bool)

namespace Tree

def span : Tree → Span
  | token _ _ span _ => span
  | group _ _ span _ => span

def onNewLine : Tree → Bool
  | token _ _ _ b => b
  | group _ _ _ b => b

def isPunct (text : String) : Tree → Bool
  | token .punct t _ _ => t == text
  | _ => false

def isWord (text : String) : Tree → Bool
  | token .word t _ _ => t == text
  | _ => false

def isAnyWord : Tree → Bool
  | token .word _ _ _ => true
  | _ => false

def isOneOf (words : List String) : Tree → Bool
  | token .word t _ _ => words.contains t
  | _ => false

def isString : Tree → Bool
  | token .string _ _ _ => true
  | _ => false

def isGroup (enclosure : Enclosure) : Tree → Bool
  | group e _ _ _ => e == enclosure
  | _ => false

def children : Tree → List Tree
  | group _ children _ _ => children
  | _ => []

def text : Tree → String
  | token _ text _ _ => text
  | _ => ""

end Tree

def slice (source : Array Char) (span : Span) : String :=
  String.ofList (source.extract span.start span.stop).toList

def textOf (source : Array Char) (tree : Tree) : String := slice source tree.span

def textOfAll (source : Array Char) (trees : List Tree) : String :=
  match trees, trees.getLast? with
  | first :: _, some last => slice source ⟨first.span.start, last.span.stop⟩
  | _, _ => ""

/-- The pieces between the separators; there is one piece more than there are separators. -/
def splitTrees (isSeparator : Tree → Bool) : List Tree → List (List Tree)
  | [] => [[]]
  | t :: rest =>
    if isSeparator t then [] :: splitTrees isSeparator rest
    else match splitTrees isSeparator rest with
      | piece :: pieces => (t :: piece) :: pieces
      | [] => [[t]]

end Groundwork.Source
