import Columnar.Document.Entities
import Columnar.FieldConfig
import Columnar.FrameMeta

/-! What a frame document says, before anything is made of it. Every part may be missing, and
members that are not known are passed over. -/
namespace Columnar

/-- A field type as a schema describes it. -/
structure TypeContent where
  name : String
  nullable : Bool := false

/-- A field of a schema. -/
structure FieldContent where
  name : String := ""
  coarse : Option String := none
  type : Option TypeContent := none
  labels : Option Labels := none
  config : Option FieldConfig := none

/-- The schema section. -/
structure SchemaContent where
  name : String := ""
  refId : String := ""
  info : Option FrameMeta := none
  fields : List FieldContent := []

/-- The data section: the cells of every column, and the special floats of the first ones. -/
structure DataContent where
  columns : List (List Json) := []
  entities : List (Option Entities) := []

/-- A document and its sections. -/
structure DocumentContent where
  schema : Option SchemaContent := none
  data : Option DataContent := none

open DraftReader

def TypeContent.read (origin : DraftOrigin) : DraftReader TypeContent :=
  record origin "TypeInfoDoc"
    [required "frame" string fun v r => { r with name := v },
     defaulted ["nullable"] flag fun v r => { r with nullable := v }]
    { name := "" }

def FieldContent.read (origin : DraftOrigin) : DraftReader FieldContent :=
  record origin "FieldDoc"
    [defaulted ["name"] string fun v r => { r with name := v },
     optional "type" true string fun v r => { r with coarse := v },
     optional "typeInfo" true (TypeContent.read origin) fun v r => { r with type := v },
     optional "labels" true Labels.read fun v r => { r with labels := v },
     optional "config" true (FieldConfig.read origin) fun v r => { r with config := v }]
    {}

def SchemaContent.read (origin : DraftOrigin) : DraftReader SchemaContent :=
  record origin "SchemaDoc"
    [defaulted ["name"] string fun v r => { r with name := v },
     defaulted ["refId"] string fun v r => { r with refId := v },
     optional "meta" true (FrameMeta.read origin) fun v r => { r with info := v },
     defaulted ["fields"] (listOf (FieldContent.read origin)) fun v r => { r with fields := v }]
    {}

/-- The columns of a data section may go by either of two names, but not by both. -/
def DataContent.read (origin : DraftOrigin) : DraftReader DataContent :=
  record origin "DataDoc"
    [defaulted ["fields", "values"] (listOf (listOf json)) fun v r => { r with columns := v },
     defaulted ["entities"] (listOf (nullable (Entities.read origin))) fun v r =>
       { r with entities := v }]
    {}

def DocumentContent.read (origin : DraftOrigin) : DraftReader DocumentContent :=
  record origin "FrameDoc"
    [optional "schema" true (SchemaContent.read origin) fun v r => { r with schema := v },
     optional "data" true (DataContent.read origin) fun v r => { r with data := v }]
    {}

namespace DocumentContent

/-- A section must be an object, absent or null. -/
def checkSection (members : List (String × Json)) (name : String) : Except DocumentFault Unit :=
  match members.lookup name with
  | none | some .null | some (.object _) => .ok ()
  | some found => .error (.sectionNotObject name found)

/-- The contents of a document that has been read as a value. A document and its sections must be
objects; a list of values in order is not taken for one. -/
def ofJson (value : Json) : Except DocumentFault DocumentContent :=
  match value with
  | .object members => do
    checkSection members "schema"
    checkSection members "data"
    (DraftReader.ofValue read value).mapError .malformed
  | found => .error (.notObject found)

end DocumentContent

end Columnar
