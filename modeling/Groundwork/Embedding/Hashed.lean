import Groundwork.Embedding.Digest
import Groundwork.Embedding.Norm
import Groundwork.Embedding.Tokens
import Groundwork.Failure

/-!
Embedding by hashing. Every token adds its weight to the bucket that its digest chooses, with the sign
that the digest chooses. Sums of weights are exact, in halves.
-/

namespace Groundwork.Embedding

/-- The bucket of a token: its place among `dimension` many, and whether it counts negatively. -/
def bucketOf (dimension : Nat) (token : String) : Nat × Bool :=
  let digest := Digest.ofText token
  (digest % dimension, Nat.pow 2 63 ≤ digest)

def addToken (sums : List Int) (token : Token) : List Int :=
  let (place, negative) := bucketOf sums.length token.text
  sums.modify place fun sum => if negative then sum - token.halves else sum + token.halves

def accumulate (dimension : Nat) (text : String) : List Int :=
  (tokens text).foldl addToken (List.replicate dimension 0)

def hashed (dimension : Nat) (text : String) : Vector64 :=
  normalize ((accumulate dimension text).map fun sum => Float.ofInt sum / 2.0)

/-- The embedding of a text. Without dimensions there is no bucket to put a token into. -/
def hashedText (dimension : Int) (text : String) : Except DataFault Vector64 :=
  if 0 < dimension || (tokens text).isEmpty then .ok (hashed dimension.toNat text)
  else if dimension = 0 then .error .zeroDivision
  else .error .outOfRange

end Groundwork.Embedding
