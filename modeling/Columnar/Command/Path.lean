import Columnar.Text.Letters

/-! Paths of files: names between slashes. -/
namespace Columnar

/-- The names of a path. Slashes next to each other count as one, and the name for the folder itself
is passed over. -/
def pathNames (path : String) : List (List Char) :=
  (Text.splitChars '/' path.toList).filter fun name => name ≠ [] ∧ name ≠ ['.']

/-- What follows the last dot of a file's name. A dot that the name begins with does not count. -/
def pathExtension? (path : String) : Option String :=
  match (pathNames path).getLast? with
  | none => none
  | some name =>
    if name = ['.', '.'] then none
    else
      match Text.cutAt '.' name.reverse with
      | some (_, []) | none => none
      | some (ending, _) => some (String.ofList ending.reverse)

end Columnar
