import Columnar.Settings.Choice

/-! Settings taken from named variables. A variable that is absent leaves the setting as it is; one
that is present must be sound. -/
namespace Columnar

/-- Variables with their texts. -/
abbrev Environment := List (String × String)

namespace Environment

/-- The setting of a variable, read from its text. -/
def setting {α : Type} (environment : Environment) (name : String) (default : α)
    (read : String → Except Error α) : Except Error α :=
  match environment.lookup name with
  | some text => read text
  | none => .ok default

/-- A natural number of 64 bits. -/
def natural (environment : Environment) (name : String) (default : Nat) : Except Error Nat :=
  environment.setting name default fun text =>
    match readNatural 0xFFFFFFFFFFFFFFFF (Text.trim text) with
    | .ok n => .ok n
    | .error fault => .error (.setting (.notNatural name text fault))

end Environment

/-- Settings of the codecs. -/
structure CodecSettings where
  arrowLayout : ArrowLayout := .file
  /-- How many buffers a pool keeps while they are not in use. -/
  poolSize : Nat := 16
  /-- The room that a new buffer has. -/
  bufferCapacity : Nat := 8192
deriving DecidableEq, Repr

namespace CodecSettings

def layoutVariable : String := "TSFRAME_ARROW_FORMAT"
def poolSizeVariable : String := "TSFRAME_JSON_POOL_SIZE"
def bufferCapacityVariable : String := "TSFRAME_JSON_BUFFER_CAPACITY"

def ofEnvironment (environment : Environment) : Except Error CodecSettings := do
  let defaults : CodecSettings := {}
  let arrowLayout ← environment.setting layoutVariable defaults.arrowLayout ArrowLayout.parse
  let poolSize ← environment.natural poolSizeVariable defaults.poolSize
  let bufferCapacity ← environment.natural bufferCapacityVariable defaults.bufferCapacity
  return { arrowLayout, poolSize, bufferCapacity }

def withArrowLayout (settings : CodecSettings) (arrowLayout : ArrowLayout) : CodecSettings :=
  { settings with arrowLayout }

end CodecSettings

end Columnar
