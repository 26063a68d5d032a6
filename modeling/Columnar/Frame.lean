import Columnar.Field
import Columnar.FrameMeta

/-! Frames: a list of fields with a name, the identifier of the query they answer, metadata and
warnings. A frame has rows when it has fields and all of them have the same length. -/
namespace Columnar

/-- Fields that belong together. -/
structure Frame where
  name : String := ""
  refId : String := ""
  fields : List Field := []
  info : Option FrameMeta := none
  warnings : List FrameWarning := []

namespace Frame

instance : Inhabited Frame := ⟨{}⟩

/-- The number of rows. -/
def rowCount (frame : Frame) : Except Error Nat :=
  match frame.fields with
  | [] => .error .noFields
  | first :: rest =>
    match firstUneven? first.size 1 (rest.map Field.size) with
    | none => .ok first.size
    | some error => .error error

def field (frame : Frame) (index : Nat) : Except Error Field :=
  match frame.fields[index]? with
  | some field => .ok field
  | none => .error (.indexOutOfRange index frame.fields.length)

/-- The frame with one field replaced. -/
def withFieldAt (frame : Frame) (index : Nat) (field : Field) : Frame :=
  { frame with fields := frame.fields.set index field }

def withField (frame : Frame) (field : Field) : Frame :=
  { frame with fields := frame.fields ++ [field] }

def fieldByName? (frame : Frame) (name : String) : Option Field :=
  frame.fields.find? (·.name == name)

def fieldIndexByName? (frame : Frame) (name : String) : Option Nat :=
  frame.fields.findIdx? (·.name == name)

def types (frame : Frame) : List FieldType := frame.fields.map Field.type

/-- The positions of the fields whose type is among the given ones. -/
def indicesOfTypes (frame : Frame) (types : List FieldType) : List Nat :=
  (frame.fields.zipIdx.filter fun (field, _) => types.contains field.type).map (·.2)

/-- Notices are added after those that are there. -/
def addNotices (frame : Frame) (notices : List Notice) : Frame :=
  let info := frame.info.getD {}
  { frame with info := some { info with notices := info.notices ++ notices } }

def addWarning (frame : Frame) (message : String) (details : Option String) : Frame :=
  { frame with warnings := frame.warnings ++ [⟨message, details⟩] }

/-- The same name, query and fields, without rows, configurations, metadata and warnings. -/
def emptyCopy (frame : Frame) : Frame :=
  { name := frame.name, refId := frame.refId, fields := frame.fields.map Field.emptyCopy }

/-- Equality of frames in all their parts. -/
def same (a b : Frame) : Bool :=
  let sameInfo := match a.info, b.info with
    | none, none => true
    | some x, some y => x.same y
    | _, _ => false
  a.name == b.name && a.refId == b.refId && sameInfo && a.warnings == b.warnings
    && a.fields.length == b.fields.length
    && (a.fields.zip b.fields).all fun (x, y) => x.same y

/-- The value of a cell. -/
def get (frame : Frame) (field row : Nat) : Except Error Value := do
  let field ← frame.field field
  field.column.get row

/-- The value of a cell, nothing where it is null. -/
def present (frame : Frame) (field row : Nat) : Except Error (Option Value) := do
  let field ← frame.field field
  field.column.present row

/-- One cell overwritten. An error about the value names the field. -/
def set (frame : Frame) (index row : Nat) (value : Value) : Except Error Frame := do
  let field ← frame.field index
  match field.column.set row value with
  | .ok column => return frame.withFieldAt index (field.withColumn column)
  | .error error => .error (error.atField index)

end Frame

end Columnar
