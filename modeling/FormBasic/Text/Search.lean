/-!
# Searching in lists of characters

Texts are searched as lists of characters, so positions count characters.
-/

namespace FormBasic.Text

/-- The rest of `cs` after the leading `pat`, if `cs` starts with it. -/
def stripLead? : (pat cs : List Char) → Option (List Char)
  | [], cs => some cs
  | _ :: _, [] => none
  | p :: ps, c :: cs => if p == c then stripLead? ps cs else none

/-- Whether `cs` starts with `pat`. -/
def startsWith (pat cs : List Char) : Bool := (stripLead? pat cs).isSome

/-- The number of characters before the first occurrence of `pat`. -/
def indexOf? (pat : List Char) : List Char → Option Nat
  | [] => if pat.isEmpty then some 0 else none
  | c :: cs =>
    if startsWith pat (c :: cs) then some 0 else (indexOf? pat cs).map (· + 1)

/-- The number of characters before the last occurrence of `pat`. -/
def lastIndexOf? (pat : List Char) : List Char → Option Nat
  | [] => if pat.isEmpty then some 0 else none
  | c :: cs =>
    match lastIndexOf? pat cs with
    | some i => some (i + 1)
    | none => if startsWith pat (c :: cs) then some 0 else none

/-- Cut at every occurrence of the non-empty separator `s :: sep`; `acc` holds the current piece
reversed, and `skip` counts the characters of a separator still to pass over. -/
def splitAux (s : Char) (sep : List Char) : (skip : Nat) → (acc : List Char) → List Char →
    List (List Char)
  | _, acc, [] => [acc.reverse]
  | k + 1, acc, _ :: cs => splitAux s sep k acc cs
  | 0, acc, c :: cs =>
    if startsWith (s :: sep) (c :: cs) then acc.reverse :: splitAux s sep sep.length [] cs
    else splitAux s sep 0 (c :: acc) cs

/-- Split at every occurrence of a separator, from the left and without overlap. The empty
separator cuts between all characters. -/
def splitOn : (sep cs : List Char) → List (List Char)
  | [], cs => cs.map ([·])
  | s :: sep, cs => splitAux s sep 0 [] cs

/-- Put a separator between the pieces. -/
def joinWith (sep : List Char) : List (List Char) → List Char
  | [] => []
  | [p] => p
  | p :: q :: ps => p ++ sep ++ joinWith sep (q :: ps)

/-- Replace every occurrence of a pattern. The empty pattern occurs before every character and at
the end. -/
def replaceAll (pat new cs : List Char) : List Char :=
  if pat.isEmpty then new ++ cs.flatMap (fun c => c :: new)
  else joinWith new (splitOn pat cs)

/-- Whether `pat` occurs in `cs`. -/
def occursIn (pat cs : List Char) : Bool := (indexOf? pat cs).isSome

/-- Whether `cs` ends with `pat`. -/
def endsWith (pat cs : List Char) : Bool := startsWith pat.reverse cs.reverse

/-- The part before the first occurrence of a character, and the part after it if it occurs. -/
def cut (sep : Char) : List Char → List Char × Option (List Char)
  | [] => ([], none)
  | c :: cs =>
    if c == sep then ([], some cs)
    else let (before, after) := cut sep cs; (c :: before, after)

end FormBasic.Text
