import Columnar.Command.Argument
import Columnar.Csv
import Columnar.Settings.Environment

/-! The commands and the arguments that say them: a general part, the name of a command, and the
options of that command. -/
namespace Columnar

/-- The formats of documents that hold frames. -/
inductive DocumentFormat where
  | arrow
  | json
  | csv
deriving DecidableEq, Repr

namespace DocumentFormat

def ofName? : String → Option DocumentFormat
  | "arrow" => some arrow
  | "json" => some json
  | "csv" => some csv
  | _ => none

/-- The name that begins a message. -/
def title : DocumentFormat → String
  | arrow => "Arrow"
  | json => "Json"
  | csv => "Csv"

/-- The format of files whose names end so. -/
def ofExtension? : String → Option DocumentFormat
  | "arrow" | "ipc" | "arrows" => some arrow
  | "json" => some json
  | "csv" => some csv
  | _ => none

end DocumentFormat

/-- From where frames are taken and to where they are brought. A hyphen stands for the standard input
and output. -/
structure Transfer where
  input : String
  output : String
  inputFormat : Option DocumentFormat
  outputFormat : Option DocumentFormat
  arrowLayout : Option ArrowLayout
deriving DecidableEq, Repr

/-- The two ways to turn time series round. -/
inductive PivotDirection where
  | longToWide
  | wideToLong
deriving DecidableEq, Repr

def PivotDirection.ofName? : String → Option PivotDirection
  | "long-to-wide" => some longToWide
  | "wide-to-long" => some wideToLong
  | _ => none

/-- What can be done with frames. -/
inductive Command where
  /-- Bring frames into another format. -/
  | convert (transfer : Transfer) (parts : FrameParts) (csv : CsvOptions)
  /-- Turn frames round. The fill is read when the command is carried out. -/
  | pivot (transfer : Transfer) (direction : PivotDirection) (fill : Option String)
  /-- Describe frames. -/
  | inspect (input : String) (format : Option DocumentFormat)
deriving DecidableEq, Repr

/-- Arguments that make sense. -/
structure CommandLine where
  logLevel : String
  command : Command
deriving DecidableEq, Repr

namespace GivenOptions

def inputPath (given : GivenOptions) : String := (given.lookup "input").getD "-"

def inputFormat (given : GivenOptions) : Option DocumentFormat :=
  (given.lookup "from").bind DocumentFormat.ofName?

/-- The layout that is given, or else the one that a variable says, which must be one. -/
def arrowLayout (given : GivenOptions) (environment : Environment) :
    Except Halt (Option ArrowLayout) :=
  match (given.lookup "arrow-format").or (environment.lookup CodecSettings.layoutVariable) with
  | none => .ok none
  | some text =>
    match ArrowLayout.parse text with
    | .ok layout => .ok (some layout)
    | .error _ => .error .usage

def transfer (given : GivenOptions) (environment : Environment) : Except Halt Transfer := do
  return {
    input := given.inputPath
    output := (given.lookup "output").getD "-"
    inputFormat := given.inputFormat
    outputFormat := (given.lookup "to").bind DocumentFormat.ofName?
    arrowLayout := ← given.arrowLayout environment }

end GivenOptions

namespace Command

/-! Options -/

def helpOption : CommandOption := ⟨"help", some 'h', .halt .help⟩

/-- Any value but the empty one. -/
def pathValue : OptionEffect := .value fun text => !text.isEmpty

def formatValue : OptionEffect := .value fun text => (DocumentFormat.ofName? text).isSome

def inputOptions : List CommandOption :=
  [helpOption, ⟨"input", some 'i', pathValue⟩, ⟨"from", none, formatValue⟩]

def transferOptions : List CommandOption :=
  inputOptions ++ [⟨"output", some 'o', pathValue⟩, ⟨"to", none, formatValue⟩,
    ⟨"arrow-format", none, .value fun text => (ArrowLayout.parse text).isOk⟩]

def convertOptions : List CommandOption :=
  transferOptions ++ [⟨"include", none, .value fun text => (FrameParts.parse text).isOk⟩,
    ⟨"no-header", none, .flag⟩, ⟨"types", none, .flag⟩]

def pivotOptions : List CommandOption :=
  transferOptions ++
    [⟨"direction", none, .value fun text => (PivotDirection.ofName? text).isSome⟩,
      ⟨"fill", none, .value fun _ => true⟩]

def generalOptions : List CommandOption :=
  [helpOption, ⟨"version", some 'V', .halt .version⟩, ⟨"log-level", none, .value fun _ => true⟩]

/-! Commands -/

/-- The options that all arguments give. -/
def onlyOptions (options : List CommandOption) (arguments : List String) :
    Except Halt GivenOptions := do
  let (given, rest) ← readOptions options [] arguments
  if rest.isEmpty then return given else throw .usage

def ofConvert (environment : Environment) (arguments : List String) : Except Halt Command := do
  let given ← onlyOptions convertOptions arguments
  let transfer ← given.transfer environment
  let parts := match (given.lookup "include").map FrameParts.parse with
    | some (.ok parts) => parts
    | _ => .all
  return .convert transfer parts
    { names := !given.has "no-header", types := given.has "types" }

def ofPivot (environment : Environment) (arguments : List String) : Except Halt Command := do
  let given ← onlyOptions pivotOptions arguments
  let transfer ← given.transfer environment
  match (given.lookup "direction").bind PivotDirection.ofName? with
  | some direction => return .pivot transfer direction (given.lookup "fill")
  | none => throw .usage

def ofInspect (arguments : List String) : Except Halt Command := do
  let given ← onlyOptions inputOptions arguments
  return .inspect given.inputPath given.inputFormat

/-- Whether help can be asked about these names. -/
def isTopic (names : List String) : Bool :=
  names.isEmpty || ["convert", "pivot", "inspect", "help"].any fun name => names == [name]

/-- The command that words say, the first of which is its name. -/
def ofWords (environment : Environment) : List String → Except Halt Command
  | "convert" :: arguments => ofConvert environment arguments
  | "pivot" :: arguments => ofPivot environment arguments
  | "inspect" :: arguments => ofInspect arguments
  | "help" :: names => .error (if isTopic names then .help else .usage)
  | _ => .error .usage

end Command

namespace CommandLine

def logLevelVariable : String := "TSFRAME_LOG_LEVEL"

def parse (environment : Environment) (arguments : List String) : Except Halt CommandLine := do
  let (given, words) ← readOptions Command.generalOptions [] arguments
  let command ← Command.ofWords environment words
  let logLevel := (given.lookup "log-level").or (environment.lookup logLevelVariable)
  return { logLevel := logLevel.getD "warn", command }

end CommandLine

end Columnar
