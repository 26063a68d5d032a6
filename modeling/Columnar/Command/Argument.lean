import Columnar.Text.Letters

/-! Arguments of a command, and the options that they give. An option is named after two hyphens or
by one letter after one hyphen; its value is part of the same argument or the argument after it. Two
hyphens alone end the options. -/
namespace Columnar

/-- Why a command is not carried out. -/
inductive Halt where
  /-- The arguments make no sense. -/
  | usage
  /-- They ask for an explanation. -/
  | help
  /-- They ask for the version. -/
  | version
deriving DecidableEq, Repr

/-- The form of an argument. -/
inductive Argument where
  | ending
  | long (name : String) (value : Option String)
  | short (letter : Char) (value : Option String)
  | word
deriving DecidableEq, Repr

/-- The form of an argument. A hyphen alone is a word. -/
def Argument.ofText (text : String) : Argument :=
  match text.toList with
  | ['-', '-'] => .ending
  | '-' :: '-' :: rest =>
    match Text.cutAt '=' rest with
    | some (name, value) => .long (String.ofList name) (some (String.ofList value))
    | none => .long (String.ofList rest) none
  | ['-', letter] => .short letter none
  | '-' :: letter :: '=' :: value => .short letter (some (String.ofList value))
  | '-' :: letter :: value => .short letter (some (String.ofList value))
  | _ => .word

/-- What an option does. -/
inductive OptionEffect where
  | halt (reason : Halt)
  /-- It says yes to something and takes no value. -/
  | flag
  /-- It takes a value, of which only some are accepted. -/
  | value (accepts : String → Bool)

/-- An option of a command. -/
structure CommandOption where
  name : String
  letter : Option Char := none
  effect : OptionEffect

/-- The options given, each with its value; the value of a flag is empty. -/
abbrev GivenOptions := List (String × String)

namespace GivenOptions

def has (given : GivenOptions) (name : String) : Bool := (given.lookup name).isSome

/-- One more option. None may be given twice. -/
def add (given : GivenOptions) (name value : String) : Except Halt GivenOptions :=
  if given.has name then .error .usage else .ok ((name, value) :: given)

end GivenOptions

/-- The option that an argument names, and the value in the same argument. -/
def namedOption? (options : List CommandOption) : Argument → Option (CommandOption × Option String)
  | .long name value => (options.find? fun option => option.name = name).map (·, value)
  | .short letter value => (options.find? fun option => option.letter = some letter).map (·, value)
  | .ending | .word => none

/-- The options that arguments give up to the first word that is not the value of one, and the
arguments from there on. After the end of the options no word may come. -/
def readOptions (options : List CommandOption) :
    GivenOptions → List String → Except Halt (GivenOptions × List String)
  | given, [] => .ok (given, [])
  | given, text :: rest =>
    match Argument.ofText text, namedOption? options (Argument.ofText text) with
    | .word, _ => .ok (given, text :: rest)
    | .ending, _ => if rest.isEmpty then .ok (given, []) else .error .usage
    | _, none => .error .usage
    | argument, some (option, attached) =>
      match option.effect, attached, rest with
      | .halt reason, none, _ => .error reason
      | .halt reason, some _, _ => .error (if argument matches .short .. then reason else .usage)
      | .flag, none, rest => do readOptions options (← given.add option.name "") rest
      | .flag, some _, _ => .error .usage
      | .value accepts, some value, rest =>
        if accepts value then do readOptions options (← given.add option.name value) rest
        else .error .usage
      | .value accepts, none, value :: rest =>
        if Argument.ofText value = .word ∧ accepts value then do
          readOptions options (← given.add option.name value) rest
        else .error .usage
      | .value _, none, [] => .error .usage
termination_by _ arguments => arguments.length

end Columnar
