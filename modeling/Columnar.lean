import Columnar.BufferPool
import Columnar.BufferPool.Use
import Columnar.Column.Calls
import Columnar.Command.Folder
import Columnar.Document.Cache
import Columnar.Frame.Calls
import Columnar.Frame.Input
import Columnar.Frame.Input.Calls
import Columnar.Frame.Rows
import Columnar.Main
import Columnar.Pivot.Gathering
import Columnar.Pivot.Scattering
import Columnar.SqlType
import Columnar.Proofs.Json.Numbers
import Columnar.Proofs.Text.Octets
import Columnar.Proofs.Json.Strings
import Columnar.Proofs.Collections
import Columnar.Proofs.Pivot.Rows
import Columnar.Proofs.Time.Order
import Columnar.Proofs.Labels
import Columnar.Proofs.Pivot.Wide
import Columnar.Proofs.Cells
import Columnar.Proofs.Pivot.Grid
import Columnar.Proofs.Pivot.RoundTrip
import Columnar.Proofs.Json.Tokens
import Columnar.Proofs.Json.Drafts
import Columnar.Proofs.Json.Values
import Columnar.Proofs.Keyed
import Columnar.Proofs.Json.Telling
import Columnar.Proofs.Json.Readers
import Columnar.Proofs.Json.Records
import Columnar.Proofs.FieldConfig
import Columnar.Proofs.FrameMeta
import Columnar.Proofs.Json.Texts
import Columnar.Proofs.Json.Depth
import Columnar.Proofs.Time.Counts
import Columnar.Proofs.Arrow.Columns
import Columnar.Proofs.Arrow.RoundTrip
import Columnar.Proofs.Document.Contents
import Columnar.Proofs.Json.Spelled
import Columnar.Proofs.Document.Cells
import Columnar.Proofs.Document.Entities
import Columnar.Proofs.Document.Columns
import Columnar.Proofs.Document.RoundTrip
import Columnar.Proofs.Columns
import Columnar.Proofs.Frame.Table
import Columnar.Proofs.Frame.Calls
import Columnar.Proofs.Pivot.Arranged
import Columnar.Proofs.Pivot.WideAgain
import Columnar.Proofs.Pivot.Reordered
import Columnar.Proofs.Json.Bounds
import Columnar.Proofs.Json.Placed
import Columnar.Proofs.Json.Made
import Columnar.Proofs.Binary.Rounding
import Columnar.Proofs.Time.Rfc3339
import Columnar.Proofs.Document.Accepted
import Columnar.Proofs.Document.Decoded
import Columnar.Proofs.Document.Nesting
import Columnar.Proofs.Document.Canonical
import Columnar.Proofs.Acceptance
import Columnar.Proofs.Document.Buffered
import Columnar.Proofs.BufferPool
import Columnar.Proofs.Document.Cache
import Columnar.Proofs.Document.Sections
import Columnar.Document.Replacing
import Columnar.Proofs.Frame.Ragged
import Columnar.Proofs.InPlace
import Columnar.Proofs.Frame.InPlace
import Columnar.Proofs.Document.Replacing
import Columnar.Proofs.Frame.Input
import Columnar.Proofs.Arrow.Documents
import Columnar.Proofs.Conversion
import Columnar.Proofs.Column.Calls
import Columnar.Proofs.Pivot.Placing
import Columnar.Proofs.Pivot.Scattering
import Columnar.Proofs.Pivot.Accepted
import Columnar.Proofs.Pivot.Filled
import Columnar.Proofs.Pivot.Numbered
import Columnar.Proofs.Pivot.Gathering
import Columnar.Proofs.Pivot.LongOf
import Columnar.Proofs.Arrow.Accepted
import Columnar.Proofs.Pivot.Distinguished
import Columnar.Frame.Filtering
import Columnar.Proofs.Frame.Filtering
import Columnar.Proofs.Csv
import Columnar.Proofs.Text.Pieces
import Columnar.Proofs.LabelText
import Columnar.Proofs.Json.Reached
import Columnar.Proofs.Document.Several
import Columnar.Proofs.Document.Listed
import Columnar.Proofs.Document.CellMeaning
import Columnar.Proofs.Document.DataMeaning
import Columnar.Proofs.QuotedLabels
import Columnar.Proofs.SqlType
import Columnar.Proofs.Column.Indexes
import Columnar.Proofs.Text.Digits
import Columnar.Proofs.Time.Calendar
import Columnar.Proofs.Time.Written
import Columnar.Proofs.Conversion.Texts
import Columnar.Proofs.TimeSeries.Roles
import Columnar.Proofs.Settings.Attributes
import Columnar.Labels.Calls
import Columnar.Proofs.Labels.Calls
