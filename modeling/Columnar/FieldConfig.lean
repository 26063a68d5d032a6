import Columnar.Json.FreeForm

/-! How a field should be shown: names, units, bounds, links and free-form settings. As a document
a configuration has only the members that are set, always in the same order. -/
namespace Columnar

/-- A link attached to the values of a field. -/
structure DataLink where
  title : String := ""
  url : String := ""
  targetBlank : Bool := false
deriving DecidableEq

/-- The texts that the indexes of an enum field stand for, and what goes with them. -/
structure EnumTexts where
  text : List String := []
  color : Option (List String) := none
  icon : Option (List String) := none
  description : Option (List String) := none
deriving DecidableEq

/-- Configuration of one kind of fields. -/
structure KindConfig where
  enumTexts : Option EnumTexts := none
deriving DecidableEq

/-- Display settings of a field. -/
structure FieldConfig where
  displayName : Option String := none
  displayNameFromSource : Option String := none
  path : Option String := none
  description : Option String := none
  filterable : Option Bool := none
  writeable : Option Bool := none
  unit : Option String := none
  decimals : Option UInt16 := none
  min : Option Binary64 := none
  max : Option Binary64 := none
  interval : Option Binary64 := none
  noValue : Option String := none
  links : Option (List DataLink) := none
  color : Option FreeForm := none
  mappings : Option FreeForm := none
  thresholds : Option FreeForm := none
  custom : Option FreeObject := none
  kindConfig : Option KindConfig := none

/-- A list of texts as a document. -/
def Json.ofStrings (texts : List String) : Json := .list (texts.map Json.string)

namespace DataLink

def toJson (link : DataLink) : Json :=
  .object ([("title", .string link.title), ("url", .string link.url)] ++
    if link.targetBlank then [("targetBlank", .bool true)] else [])

open DraftReader in
def read (origin : DraftOrigin) : DraftReader DataLink :=
  record origin "DataLink"
    [defaulted ["title"] string fun v r => { r with title := v },
     defaulted ["url"] string fun v r => { r with url := v },
     defaulted ["targetBlank"] flag fun v r => { r with targetBlank := v }]
    {}

end DataLink

namespace EnumTexts

def toJson (texts : EnumTexts) : Json :=
  .object ([("text", Json.ofStrings texts.text)]
    ++ Json.optionalMember "color" (texts.color.map Json.ofStrings)
    ++ Json.optionalMember "icon" (texts.icon.map Json.ofStrings)
    ++ Json.optionalMember "description" (texts.description.map Json.ofStrings))

open DraftReader in
def read (origin : DraftOrigin) : DraftReader EnumTexts :=
  record origin "EnumFieldConfig"
    [defaulted ["text"] (listOf string) fun v r => { r with text := v },
     optional "color" false (listOf string) fun v r => { r with color := v },
     optional "icon" false (listOf string) fun v r => { r with icon := v },
     optional "description" false (listOf string) fun v r => { r with description := v }]
    {}

end EnumTexts

namespace KindConfig

def toJson (config : KindConfig) : Json :=
  .object (Json.optionalMember "enum" (config.enumTexts.map EnumTexts.toJson))

open DraftReader in
def read (origin : DraftOrigin) : DraftReader KindConfig :=
  record origin "FieldTypeConfig"
    [optional "enum" false (EnumTexts.read origin) fun v r => { r with enumTexts := v }]
    {}

end KindConfig

namespace FieldConfig

/-- The text that an index stands for, if there is a table with an entry for it. -/
def enumText? (config : FieldConfig) (index : Nat) : Option String := do
  let kindConfig ← config.kindConfig
  let texts ← kindConfig.enumTexts
  texts.text[index]?

/-- The configuration with a table of texts for the indexes of an enum field. -/
def withEnumText (config : FieldConfig) (text : List String) : FieldConfig :=
  { config with kindConfig := some { enumTexts := some { text := text } } }

/-- The configuration as a document, without the members that are not set. -/
def toJson (config : FieldConfig) : Json :=
  let text (key : String) (value : Option String) := Json.optionalMember key (value.map .string)
  let flag (key : String) (value : Option Bool) := Json.optionalMember key (value.map .bool)
  let real (key : String) (value : Option Binary64) :=
    Json.optionalMember key (value.map Json.ofReal)
  .object (text "displayName" config.displayName
    ++ text "displayNameFromDS" config.displayNameFromSource
    ++ text "path" config.path
    ++ text "description" config.description
    ++ flag "filterable" config.filterable
    ++ flag "writeable" config.writeable
    ++ text "unit" config.unit
    ++ Json.optionalMember "decimals" (config.decimals.map fun n => Json.ofNat n.toNat)
    ++ real "min" config.min
    ++ real "max" config.max
    ++ real "interval" config.interval
    ++ text "noValue" config.noValue
    ++ Json.optionalMember "links" (config.links.map fun links => .list (links.map DataLink.toJson))
    ++ Json.optionalMember "color" (config.color.map FreeForm.value)
    ++ Json.optionalMember "mappings" (config.mappings.map FreeForm.value)
    ++ Json.optionalMember "thresholds" (config.thresholds.map FreeForm.value)
    ++ Json.optionalMember "custom" (config.custom.map FreeObject.toJson)
    ++ Json.optionalMember "type" (config.kindConfig.map KindConfig.toJson))

open DraftReader in
/-- Reading a configuration. -/
def read (origin : DraftOrigin) : DraftReader FieldConfig :=
  record origin "FieldConfig"
    [optional "displayName" false string fun v r => { r with displayName := v },
     optional "displayNameFromDS" false string fun v r => { r with displayNameFromSource := v },
     optional "path" false string fun v r => { r with path := v },
     optional "description" false string fun v r => { r with description := v },
     optional "filterable" false flag fun v r => { r with filterable := v },
     optional "writeable" false flag fun v r => { r with writeable := v },
     optional "unit" false string fun v r => { r with unit := v },
     optional "decimals" false (natural 16 "u16") fun v r =>
       { r with decimals := v.map Nat.toUInt16 },
     optional "min" false real fun v r => { r with min := v },
     optional "max" false real fun v r => { r with max := v },
     optional "interval" false real fun v r => { r with interval := v },
     optional "noValue" false string fun v r => { r with noValue := v },
     optional "links" false (listOf (DataLink.read origin)) fun v r => { r with links := v },
     optional "color" false FreeForm.read fun v r => { r with color := v },
     optional "mappings" false FreeForm.read fun v r => { r with mappings := v },
     optional "thresholds" false FreeForm.read fun v r => { r with thresholds := v },
     optional "custom" false FreeObject.read fun v r => { r with custom := v },
     optional "type" false (KindConfig.read origin) fun v r => { r with kindConfig := v }]
    {}

/-- Equality of settings: floats as numbers, documents as values. -/
def same (a b : FieldConfig) : Bool :=
  let sameReal : Option Binary64 → Option Binary64 → Bool
    | some x, some y => x.sameNumber y
    | none, none => true
    | _, _ => false
  let sameFree : Option FreeForm → Option FreeForm → Bool
    | some x, some y => x.same y
    | none, none => true
    | _, _ => false
  let sameObject : Option FreeObject → Option FreeObject → Bool
    | some x, some y => x.same y
    | none, none => true
    | _, _ => false
  a.displayName == b.displayName && a.displayNameFromSource == b.displayNameFromSource
    && a.path == b.path && a.description == b.description && a.filterable == b.filterable
    && a.writeable == b.writeable && a.unit == b.unit && a.decimals == b.decimals
    && sameReal a.min b.min && sameReal a.max b.max && sameReal a.interval b.interval
    && a.noValue == b.noValue && a.links == b.links && sameFree a.color b.color
    && sameFree a.mappings b.mappings && sameFree a.thresholds b.thresholds
    && sameObject a.custom b.custom && a.kindConfig == b.kindConfig

/-- The configuration of a text. -/
def parse (text : Octets) : Except RecordFault FieldConfig := DraftReader.ofText read text

end FieldConfig

end Columnar
