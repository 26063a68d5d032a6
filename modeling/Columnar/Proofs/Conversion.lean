import Columnar.Conversion
import Columnar.Proofs.Columns

/-! Conversions and the types of their results. Nothing obliges a conversion to give what its type
takes; those that are there already do, or say what is wrong with the value. -/
namespace Columnar

namespace Conversion

/-- The conversions that are there already, without the one that passes values as they are. -/
def stock : List Conversion :=
  [stringToFloat64, stringToInt64, stringToBool, stringToTime, numericToFloat64, anyToString]

/-- A conversion gives values that its own type takes, or a fault of conversion. -/
def Total (conversion : Conversion) : Prop :=
  ∀ value, (∃ converted, conversion.convert value = .ok converted ∧
      conversion.output.Takes converted) ∨
    ∃ fault, conversion.convert value = .error (.conversion fault)

theorem total_ofText (target : Kind) (read : String → Except ConversionFault target.Element) :
    Total ⟨⟨target, true⟩, ofText target read⟩ := by
  intro value
  cases value with
  | null => exact .inl ⟨.null, rfl, rfl⟩
  | of kind element =>
    cases kind with
    | string =>
      dsimp only [ofText]
      split
      · exact .inl ⟨.null, rfl, rfl⟩
      · split
        next found => exact .inl ⟨_, rfl, rfl⟩
        next fault _ => exact .inr ⟨fault, rfl⟩
    | _ => exact .inr ⟨_, rfl⟩

theorem total_numericToFloat64 : numericToFloat64.Total := by
  intro value
  dsimp only [numericToFloat64]
  split
  · exact .inl ⟨.null, rfl, rfl⟩
  · exact .inl ⟨_, rfl, rfl⟩
  · exact .inr ⟨_, rfl⟩

theorem total_anyToString : anyToString.Total := by
  intro value
  cases value with
  | null => exact .inl ⟨.null, rfl, rfl⟩
  | of kind element => exact .inl ⟨_, rfl, rfl⟩

theorem total_of_stock {conversion : Conversion} (listed : conversion ∈ stock) :
    conversion.Total := by
  simp only [stock, List.mem_cons, List.not_mem_nil, or_false] at listed
  rcases listed with rfl | rfl | rfl | rfl | rfl | rfl
  · exact total_ofText .float64 readFloat64
  · exact total_ofText .int64 readInt64
  · exact total_ofText .bool readBool
  · exact total_ofText .time readTime
  · exact total_numericToFloat64
  · exact total_anyToString

end Conversion

end Columnar
