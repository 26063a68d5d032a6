import Columnar.Labels

/-! Labels that are changed where they stand. Setting a key answers with the value that it had; labels
can also be built up pair by pair, or take over all pairs of others. -/
namespace Columnar

/-- A call that changes labels. -/
inductive LabelCall where
  | insert (key value : String)
  | including (key value : String)
  | extend (other : Labels)
deriving DecidableEq

/-- What a call answers. -/
inductive LabelAnswer where
  | done
  | replaced (value : Option String)
deriving DecidableEq

namespace Labels

/-- The labels after a call, and the answer. -/
def perform (labels : Labels) : LabelCall → Labels × LabelAnswer
  | .insert key value => (labels.insert key value, .replaced (labels.get? key))
  | .including key value => (labels.insert key value, .done)
  | .extend other => (labels.extend other, .done)

/-- The labels after calls, one after the other. -/
def performAll (labels : Labels) (calls : List LabelCall) : Labels :=
  calls.foldl (fun labels call => (labels.perform call).1) labels

end Labels

end Columnar
