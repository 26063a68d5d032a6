/-! Letter case of the ASCII letters, and cutting a text at a separator. Everything outside
A to Z and a to z keeps its form. -/
namespace Columnar.Text

def lowerCase (text : String) : String :=
  String.ofList (text.toList.map Char.toLower)

/-- Two texts that differ at most in the case of ASCII letters. -/
def sameLetters (a b : String) : Bool :=
  lowerCase a == lowerCase b

/-- The pieces between the separators, in order; one piece more than there are separators. -/
def splitChars (separator : Char) : List Char → List (List Char)
  | [] => [[]]
  | c :: rest =>
    if c = separator then [] :: splitChars separator rest
    else match splitChars separator rest with
      | [] => [[c]]
      | piece :: pieces => (c :: piece) :: pieces

/-- What stands before and after the first separator, if there is one. -/
def cutAt (separator : Char) : List Char → Option (List Char × List Char)
  | [] => none
  | c :: rest =>
    if c = separator then some ([], rest)
    else (cutAt separator rest).map fun (before, after) => (c :: before, after)

/-- The text after a given beginning, if it has that beginning. -/
def afterPrefix? : List Char → List Char → Option (List Char)
  | [], text => some text
  | _ :: _, [] => none
  | p :: ps, c :: rest => if p = c then afterPrefix? ps rest else none

/-- The text before a given ending, if it has that ending. -/
def beforeSuffix? (suffix text : List Char) : Option (List Char) :=
  (afterPrefix? suffix.reverse text.reverse).map List.reverse

end Columnar.Text
