import Columnar.Command.Outcome

/-! Runs in a folder that holds files and no other folders. -/
namespace Columnar

/-- The files of a folder, the ones written last first. -/
abbrev Folder := List (String × Octets)

namespace Folder

/-- The file of the folder that a path leads to. Paths to other folders lead nowhere. -/
def fileAt? (path : String) : Option String :=
  match (Text.splitChars '/' path.toList).reverse with
  | [] => none
  | name :: above =>
    if (above.all fun part => part = [] ∨ part = ['.']) ∧ above.getLast? ≠ some []
        ∧ name ∉ [[], ['.'], ['.', '.']] then some (String.ofList name)
    else none

def read? (folder : Folder) (path : String) : Option Octets :=
  (fileAt? path).bind fun name => folder.lookup name

def write? (folder : Folder) (path : String) (octets : Octets) : Option Folder :=
  (fileAt? path).map fun name => (name, octets) :: folder

/-- What is left to be seen of a run: how it ends and what it prints. -/
structure Trace where
  exitCode : UInt8
  printed : Octets := []

/-- A run with arguments, and the folder after it. -/
def run (folder : Folder) (environment : Environment) (arguments : List String)
    (standardInput : Octets) : Trace × Folder :=
  match CommandLine.parse environment arguments with
  | .error halt => (⟨halt.exitCode, []⟩, folder)
  | .ok line =>
    let path := line.command.input
    let contents := if path = "-" then some standardInput else folder.read? path
    let outcome := line.outcome environment contents
    match outcome.file with
    | none => (⟨outcome.exitCode, outcome.printed⟩, folder)
    | some (path, octets) =>
      match folder.write? path octets with
      | some folder => (⟨outcome.exitCode, outcome.printed⟩, folder)
      | none =>
        let outcome := { outcome with fault := some .system }
        (⟨outcome.exitCode, outcome.printed⟩, folder)

end Folder

end Columnar
