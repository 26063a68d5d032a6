import Columnar.FieldConfig

/-! What is known about a frame and the query behind it. As a document the metadata have only the
members that are set; statistics and notices are left out when there are none. -/
namespace Columnar

/-- The shape that a frame is declared to have. -/
inductive FrameShape where
  | timeSeriesWide
  | timeSeriesLong
  | timeSeriesMany
  | numericWide
  | numericLong
  | table
deriving DecidableEq, Repr

/-- How serious a notice is. -/
inductive Severity where
  | info
  | warning
  | error
deriving DecidableEq, Repr

/-- A named figure about the query. -/
structure QueryStat where
  displayName : String
  value : Binary64
  unit : Option String := none
deriving DecidableEq

/-- A message for the people who look at a frame. -/
structure Notice where
  severity : Severity
  text : String
  link : Option String := none
  inspect : Option String := none
deriving DecidableEq

/-- A warning raised while a frame was made. Warnings are never written. -/
structure FrameWarning where
  message : String
  details : Option String
deriving DecidableEq, Repr

/-- Metadata of a frame. -/
structure FrameMeta where
  shape : Option FrameShape := none
  typeVersion : Option (UInt32 × UInt32) := none
  path : Option String := none
  pathSeparator : Option String := none
  custom : Option FreeForm := none
  stats : List QueryStat := []
  notices : List Notice := []
  channel : Option String := none
  preferredVisualisationType : Option String := none
  executedQueryString : Option String := none

namespace FrameShape

/-- Every shape under its name. -/
def named : List (String × FrameShape) :=
  [("timeseries-wide", timeSeriesWide), ("timeseries-long", timeSeriesLong),
   ("timeseries-many", timeSeriesMany), ("numeric-wide", numericWide),
   ("numeric-long", numericLong), ("table", table)]

def name : FrameShape → String
  | timeSeriesWide => "timeseries-wide"
  | timeSeriesLong => "timeseries-long"
  | timeSeriesMany => "timeseries-many"
  | numericWide => "numeric-wide"
  | numericLong => "numeric-long"
  | table => "table"

end FrameShape

namespace Severity

/-- Every severity under its name. -/
def named : List (String × Severity) :=
  [("info", info), ("warning", warning), ("error", error)]

def name : Severity → String
  | info => "info"
  | warning => "warning"
  | error => "error"

end Severity

namespace QueryStat

def toJson (stat : QueryStat) : Json :=
  .object ([("displayName", .string stat.displayName), ("value", Json.ofReal stat.value)]
    ++ Json.optionalMember "unit" (stat.unit.map .string))

def same (a b : QueryStat) : Bool :=
  a.displayName == b.displayName && a.value.sameNumber b.value && a.unit == b.unit

open DraftReader in
def read (origin : DraftOrigin) : DraftReader QueryStat :=
  record origin "QueryStat"
    [required "displayName" string fun v r => { r with displayName := v },
     required "value" real fun v r => { r with value := v },
     optional "unit" false string fun v r => { r with unit := v }]
    { displayName := "", value := Binary64.zero }

end QueryStat

namespace Notice

def toJson (notice : Notice) : Json :=
  .object ([("severity", .string notice.severity.name), ("text", .string notice.text)]
    ++ Json.optionalMember "link" (notice.link.map .string)
    ++ Json.optionalMember "inspect" (notice.inspect.map .string))

open DraftReader in
def read (origin : DraftOrigin) : DraftReader Notice :=
  record origin "Notice"
    [required "severity" (oneOf origin Severity.named) fun v r => { r with severity := v },
     required "text" string fun v r => { r with text := v },
     optional "link" false string fun v r => { r with link := v },
     optional "inspect" false string fun v r => { r with inspect := v }]
    { severity := .info, text := "" }

end Notice

namespace FrameMeta

/-- The metadata as a document, without the members that are not set. -/
def toJson (info : FrameMeta) : Json :=
  let text (key : String) (value : Option String) := Json.optionalMember key (value.map .string)
  let nonEmpty (key : String) (items : List Json) :=
    if items.isEmpty then [] else [(key, Json.list items)]
  .object (text "type" (info.shape.map FrameShape.name)
    ++ Json.optionalMember "typeVersion" (info.typeVersion.map fun (major, minor) =>
        .list [Json.ofNat major.toNat, Json.ofNat minor.toNat])
    ++ text "path" info.path
    ++ text "pathSeparator" info.pathSeparator
    ++ Json.optionalMember "custom" (info.custom.map FreeForm.value)
    ++ nonEmpty "stats" (info.stats.map QueryStat.toJson)
    ++ nonEmpty "notices" (info.notices.map Notice.toJson)
    ++ text "channel" info.channel
    ++ text "preferredVisualisationType" info.preferredVisualisationType
    ++ text "executedQueryString" info.executedQueryString)

open DraftReader in
/-- Reading metadata. -/
def read (origin : DraftOrigin) : DraftReader FrameMeta :=
  record origin "FrameMeta"
    [optional "type" false (oneOf origin FrameShape.named) fun v r => { r with shape := v },
     optional "typeVersion" false (pairOf origin (natural 32 "u32")) fun v r =>
       { r with typeVersion := v.map fun (major, minor) => (major.toUInt32, minor.toUInt32) },
     optional "path" false string fun v r => { r with path := v },
     optional "pathSeparator" false string fun v r => { r with pathSeparator := v },
     optional "custom" false FreeForm.read fun v r => { r with custom := v },
     defaulted ["stats"] (listOf (QueryStat.read origin)) fun v r => { r with stats := v },
     defaulted ["notices"] (listOf (Notice.read origin)) fun v r => { r with notices := v },
     optional "channel" false string fun v r => { r with channel := v },
     optional "preferredVisualisationType" false string fun v r =>
       { r with preferredVisualisationType := v },
     optional "executedQueryString" false string fun v r => { r with executedQueryString := v }]
    {}

/-- Equality of metadata: floats as numbers, documents as values. -/
def same (a b : FrameMeta) : Bool :=
  let sameFree : Option FreeForm → Option FreeForm → Bool
    | some x, some y => x.same y
    | none, none => true
    | _, _ => false
  a.shape == b.shape && a.typeVersion == b.typeVersion && a.path == b.path
    && a.pathSeparator == b.pathSeparator && sameFree a.custom b.custom
    && a.stats.length == b.stats.length
    && (a.stats.zip b.stats).all (fun (x, y) => x.same y)
    && a.notices == b.notices && a.channel == b.channel
    && a.preferredVisualisationType == b.preferredVisualisationType
    && a.executedQueryString == b.executedQueryString

/-- The metadata of a text. -/
def parse (text : Octets) : Except RecordFault FrameMeta := DraftReader.ofText read text

end FrameMeta

end Columnar
