import Groundwork.Text.Letter

/-!
Searching, cutting and joining texts. Every position and length counts characters (code points).
-/

namespace Groundwork.Text

def hasRun (needle : List Char) : List Char → Bool
  | [] => needle.isEmpty
  | c :: rest => needle.isPrefixOf (c :: rest) || hasRun needle rest

def contains (s needle : String) : Bool := hasRun needle.toList s.toList

def containsAny (s : String) (needles : List String) : Bool := needles.any (contains s)

def startsWith (s start : String) : Bool := start.toList.isPrefixOf s.toList

def endsWith (s ending : String) : Bool := ending.toList.isSuffixOf s.toList

def endsWithAny (s : String) (endings : List String) : Bool := endings.any (endsWith s)

def clip (n : Nat) (s : String) : String := String.ofList (s.toList.take n)

/-- The first `n` elements; a negative number leaves out that many at the end. -/
def firstOf {α : Type} (n : Int) (xs : List α) : List α :=
  if 0 ≤ n then xs.take n.toNat else xs.take (xs.length - n.natAbs)

def cut (n : Int) (s : String) : String := String.ofList (firstOf n s.toList)

def dropEnd (n : Nat) (s : String) : String := String.ofList (s.toList.take (s.toList.length - n))

def trimEnd (p : Char → Bool) (cs : List Char) : List Char := (cs.reverse.dropWhile p).reverse

def trim (p : Char → Bool) (cs : List Char) : List Char := trimEnd p (cs.dropWhile p)

def strip (s : String) : String := String.ofList (trim isBlank s.toList)

def stripChars (chars : List Char) (s : String) : String :=
  String.ofList (trim chars.contains s.toList)

/-- The pieces between the separators; there is one piece more than there are separators. -/
def splitChars (sep : Char) : List Char → List (List Char)
  | [] => [[]]
  | c :: rest =>
    if c = sep then [] :: splitChars sep rest
    else match splitChars sep rest with
      | piece :: pieces => (c :: piece) :: pieces
      | [] => [[c]]

def split (sep : Char) (s : String) : List String := (splitChars sep s.toList).map String.ofList

def join (sep : String) (parts : List String) : String := sep.intercalate parts

def substitute (c : Char) (image : String) (s : String) : String :=
  String.ofList (s.toList.flatMap fun d => if d = c then image.toList else [d])

/-- One line more than there are line feeds, so a closing line feed adds an empty line. -/
def countLines (s : String) : Nat := s.toList.count '\n' + 1

def distinct {α : Type} [BEq α] (xs : List α) : List α :=
  (xs.foldl (fun kept x => if kept.contains x then kept else x :: kept) []).reverse

theorem distinct_nodup {α : Type} [BEq α] [LawfulBEq α] (xs : List α) : (distinct xs).Nodup := by
  have collected (rest kept : List α) (unique : kept.Nodup) :
      (rest.foldl (fun kept x => if kept.contains x then kept else x :: kept) kept).Nodup := by
    induction rest generalizing kept with
    | nil => exact unique
    | cons x rest ih =>
        rw [List.foldl_cons]
        apply ih
        split
        · exact unique
        · rename_i fresh
          exact List.nodup_cons.mpr ⟨by simpa using fresh, unique⟩
  rw [distinct, List.Nodup, List.pairwise_reverse]
  exact (collected xs [] List.nodup_nil).imp Ne.symm

end Groundwork.Text
