/-! The two layouts of time series, and frames that are neither. -/
namespace Columnar

/-- How a frame holds time series: not at all, as rows with texts that tell series apart, or as one
column per series. -/
inductive SeriesKind where
  | not
  | long
  | wide
deriving DecidableEq, Repr

def SeriesKind.name : SeriesKind → String
  | .not => "Not"
  | .long => "Long"
  | .wide => "Wide"

end Columnar
