import Columnar.Error

/-! Settings that are one of a few words. Blanks around a word and the case of its letters do not
matter; a word that is no choice is refused with the choices named. -/
namespace Columnar

/-- A word as settings compare it. -/
def settingWord (text : String) : String := Text.lowerCase (Text.trim text)

/-- The two layouts of Arrow data: with an index of its batches at the end, or without one. -/
inductive ArrowLayout where
  | file
  | stream
deriving DecidableEq, Repr

namespace ArrowLayout

def name : ArrowLayout → String
  | file => "file"
  | stream => "stream"

def parse (text : String) : Except Error ArrowLayout :=
  match settingWord text with
  | "file" => .ok file
  | "stream" => .ok stream
  | other => .error (.setting (.arrowLayout other))

end ArrowLayout

/-- Which sections of a frame a JSON document holds. -/
inductive FrameParts where
  | all
  | schemaOnly
  | dataOnly
deriving DecidableEq, Repr

namespace FrameParts

def name : FrameParts → String
  | all => "all"
  | schemaOnly => "schema"
  | dataOnly => "data"

def hasSchema : FrameParts → Bool
  | all | schemaOnly => true
  | dataOnly => false

def hasData : FrameParts → Bool
  | all | dataOnly => true
  | schemaOnly => false

def parse (text : String) : Except Error FrameParts :=
  match settingWord text with
  | "all" | "both" => .ok all
  | "schema" => .ok schemaOnly
  | "data" => .ok dataOnly
  | other => .error (.setting (.frameParts other))

end FrameParts

/-- How lines of the log are written. -/
inductive LogFormat where
  | json
  | text
deriving DecidableEq, Repr

namespace LogFormat

def name : LogFormat → String
  | json => "json"
  | text => "text"

def parse (word : String) : Except Error LogFormat :=
  match settingWord word with
  | "json" => .ok json
  | "text" | "pretty" => .ok text
  | other => .error (.setting (.logFormat other))

end LogFormat

/-- How much is logged. -/
inductive LogLevel where
  | error
  | warn
  | info
  | debug
  | trace
deriving DecidableEq, Repr

namespace LogLevel

/-- Every level, the one that logs least first. -/
def all : List LogLevel := [error, warn, info, debug, trace]

def name : LogLevel → String
  | error => "ERROR"
  | warn => "WARN"
  | info => "INFO"
  | debug => "DEBUG"
  | trace => "TRACE"

/-- A level by its name in any case, or by its number, counted from one. -/
def ofWord? (word : String) : Option LogLevel :=
  let byNumber := match readNatural 0xFFFFFFFFFFFFFFFF word with
    | .ok (position + 1) => all[position]?
    | _ => none
  byNumber.or (all.find? fun level => Text.sameLetters level.name word)

def parse (text : String) : Except Error LogLevel :=
  match ofWord? (Text.trim text) with
  | some level => .ok level
  | none => .error (.setting (.logLevel (Text.trim text)))

end LogLevel

end Columnar
