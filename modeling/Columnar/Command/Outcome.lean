import Columnar.Arrow.Packing
import Columnar.Command.Line
import Columnar.Command.Path
import Columnar.Document.Reading
import Columnar.Document.Writing
import Columnar.Pivot.Long
import Columnar.Pivot.Wide
import Columnar.Settings.Telemetry

/-! What commands do with frames: read them in some format, change them, and give them back in some
format, or describe them. -/
namespace Columnar

/-- What a command leaves behind. -/
structure Outcome where
  /-- What it prints, also when it fails later. -/
  printed : Octets := []
  /-- The path of the file that it writes, and the contents. -/
  file : Option (String × Octets) := none
  fault : Option Error := none

/-- The fill that a text says. -/
def Fill.parse (text : String) : Except Error Fill :=
  match settingWord text with
  | "null" => .ok .null
  | "previous" => .ok .previous
  | word =>
    match readFloat word with
    | .ok x => .ok (.value x)
    | .error _ => .error (.setting (.fill text))

namespace DocumentFormat

/-- The format of a document at a path, unless it is said; on standard input and output JSON. -/
def ofPath (path : String) (said : Option DocumentFormat) : Except Error DocumentFormat :=
  match said with
  | some format => .ok format
  | none =>
    if path = "-" then .ok json
    else match (pathExtension? path).bind ofExtension? with
      | some format => .ok format
      | none => .error (.setting (.unknownFormat path))

/-- Whether an octet is space that may stand in front of a document. -/
def isSpace (octet : UInt8) : Bool :=
  octet == 0x20 || octet == 0x09 || octet == 0x0A || octet == 0x0C || octet == 0x0D

/-- The frames of a document. Only JSON can hold several, in brackets. -/
def frames (format : DocumentFormat) (octets : Octets) : Except Error (List Frame) :=
  match format with
  | arrow => do return [← Frame.ofArrowOctets octets]
  | json =>
    if octets.find? (fun octet => !isSpace octet) = some 0x5B then Frame.ofDocuments octets
    else do return [← Frame.ofDocument octets]
  | csv => .error (.setting .outputOnly)

end DocumentFormat

namespace Transfer

/-- The layout for Arrow data: the one that was said, or else that of the settings. -/
def layout (transfer : Transfer) (environment : Environment) : Except Error ArrowLayout :=
  match transfer.arrowLayout with
  | some layout => .ok layout
  | none => do return (← CodecSettings.ofEnvironment environment).arrowLayout

/-- The document of frames in the format of the output. -/
def document (transfer : Transfer) (environment : Environment) (parts : FrameParts)
    (options : CsvOptions) (frames : List Frame) : Except Error Octets := do
  match ← DocumentFormat.ofPath transfer.output transfer.outputFormat, frames with
  | .json, [frame] => frame.document parts
  | .json, frames => Frame.documents frames parts
  | .arrow, [frame] => frame.toArrowOctets (← transfer.layout environment)
  | .csv, [frame] => return Octets.ofString (← frame.csv options)
  | format, frames => throw (.setting (.oneFrameExpected format.title frames.length))

/-- A document brought to the output. -/
def deliver (transfer : Transfer) : Except Error Octets → Outcome
  | .error fault => { fault := some fault }
  | .ok octets =>
    if transfer.output = "-" then { printed := octets }
    else { file := some (transfer.output, octets) }

end Transfer

namespace Frame

/-- The lines about a frame: one about the whole, one about each field. -/
def summary (frame : Frame) : Except Error String := do
  let rows ← frame.rowCount
  let first := "frame '" ++ frame.name ++ "' refId '" ++ frame.refId ++ "': "
    ++ integerText frame.fields.length ++ " fields, " ++ integerText rows ++ " rows, "
    ++ frame.seriesRoles.kind.name ++ " time series\n"
  let lines := frame.fields.mapIdx fun index field =>
    "  [" ++ integerText index ++ "] " ++ field.displayName ++ " " ++ field.type.name ++ " "
      ++ field.labels.text ++ "\n"
  return first ++ String.join lines

end Frame

/-- The lines about frames up to one that has no summary. -/
def describeFrames : List Frame → Outcome
  | [] => {}
  | frame :: rest =>
    match frame.summary with
    | .error fault => { fault := some fault }
    | .ok text =>
      let outcome := describeFrames rest
      { outcome with printed := Octets.ofString text ++ outcome.printed }

namespace Command

/-- Where a command takes its frames from. -/
def input : Command → String
  | convert transfer _ _ => transfer.input
  | pivot transfer _ _ => transfer.input
  | inspect input _ => input

def inputFormat : Command → Option DocumentFormat
  | convert transfer _ _ => transfer.inputFormat
  | pivot transfer _ _ => transfer.inputFormat
  | inspect _ format => format

/-- A frame turned round. -/
def turned (direction : PivotDirection) (fill : Option Fill) (frame : Frame) : Except Error Frame :=
  match direction with
  | .longToWide => frame.longToWide fill
  | .wideToLong => frame.wideToLong

/-- What a command does with frames. -/
def outcomeOfFrames (environment : Environment) (frames : List Frame) : Command → Outcome
  | convert transfer parts csv =>
    transfer.deliver (transfer.document environment parts csv frames)
  | pivot transfer direction fill => transfer.deliver do
    let fill ← fill.mapM Fill.parse
    let frames ← frames.mapM (turned direction fill)
    transfer.document environment .all {} frames
  | inspect _ _ => describeFrames frames

/-- What a command does with the contents of its input, if there is an input. -/
def outcome (environment : Environment) (contents : Option Octets) (command : Command) : Outcome :=
  let frames : Except Error (List Frame) := do
    match contents with
    | none => throw .system
    | some octets => (← DocumentFormat.ofPath command.input command.inputFormat).frames octets
  match frames with
  | .error fault => { fault := some fault }
  | .ok frames => command.outcomeOfFrames environment frames

end Command

/-- The name under which commands log. -/
def commandService : String := "columnar"

/-- What arguments bring about once they make sense. The settings of the log must be sound, although
nothing is logged here. -/
def CommandLine.outcome (environment : Environment) (contents : Option Octets)
    (line : CommandLine) : Outcome :=
  match TelemetrySettings.ofEnvironment environment commandService line.logLevel with
  | .error fault => { fault := some fault }
  | .ok _ => line.command.outcome environment contents

/-- How a run ends. Arguments that make no sense and faults have codes of their own, and so has data
that nothing can be made of. -/
def Halt.exitCode : Halt → UInt8
  | .usage => 2
  | .help | .version => 0

def Outcome.exitCode (outcome : Outcome) : UInt8 :=
  match outcome.fault with
  | none => 0
  | some (.storage .impossible) => 101
  | some _ => 1

end Columnar
