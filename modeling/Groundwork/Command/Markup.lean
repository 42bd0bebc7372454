import Groundwork.Text.Basic

/-!
Texts with style tags in square brackets. A tag begins with a small letter, a slash, a hash or an at
sign; a slash closes a tag, and what closes nothing makes the text unusable. A backslash before a
tag makes it a part of the text.
-/

namespace Groundwork.Command.Markup

def beginsTag (c : Char) : Bool := Text.isAsciiLower c || c == '#' || c == '/' || c == '@'

def tag? (cs : List Char) : Option (List Char × List Char) :=
  match cs with
  | [] => none
  | c :: rest =>
    if !beginsTag c then none
    else match rest.span fun d => d != '[' && d != ']' with
      | (inside, ']' :: after) => some (c :: inside, after)
      | _ => none

def styleName (cs : List Char) : String := Text.lower (Text.strip (String.ofList cs))

/-- The open tags after one more tag, unless it closes a tag that is not open. -/
def applyTag (openTags : List String) (inside : List Char) : Option (List String) :=
  let text := inside.takeWhile (· != '=')
  match text with
  | '/' :: name =>
    let name := styleName name
    if name.isEmpty then
      match openTags with
      | _ :: rest => some rest
      | [] => none
    else if openTags.contains name then some (openTags.erase name) else none
  | _ => some (styleName text :: openTags)

def plainFrom : Nat → List String → Nat → List Char → Option (List Char)
  | 0, _, slashes, cs => some (List.replicate slashes '\\' ++ cs)
  | _, _, slashes, [] => some (List.replicate slashes '\\')
  | fuel + 1, openTags, slashes, c :: rest =>
    if c = '\\' then plainFrom fuel openTags (slashes + 1) rest
    else if c = '[' then
      match tag? rest with
      | some (inside, after) =>
        let kept := List.replicate (slashes / 2) '\\'
        if slashes % 2 = 1 then
          (plainFrom fuel openTags 0 after).map fun last =>
            kept ++ ('[' :: inside ++ ']' :: last)
        else (applyTag openTags inside).bind fun openTags =>
          (plainFrom fuel openTags 0 after).map (kept ++ ·)
      | none =>
        (plainFrom fuel openTags 0 rest).map fun last =>
          List.replicate (slashes - 1) '\\' ++ ('[' :: last)
    else
      (plainFrom fuel openTags 0 rest).map fun last =>
        List.replicate slashes '\\' ++ (c :: last)

def plain? (s : String) : Option String :=
  (plainFrom (s.length + 1) [] 0 s.toList).map String.ofList

end Groundwork.Command.Markup
