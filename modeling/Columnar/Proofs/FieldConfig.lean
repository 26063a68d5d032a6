import Columnar.FieldConfig
import Columnar.Proofs.Json.Records

/-! Configurations and their documents. A configuration is read back from its document as it was,
provided that the document can say it: an infinite bound and a setting that is null would be taken
for ones that are not set. -/
namespace Columnar

open DraftReader

theorem Json.ofStrings_gives (texts : List String) :
    (listOf DraftReader.string).Gives (Json.ofStrings texts) texts :=
  listOf_gives_self fun s _ => string_gives s

theorem FreeForm.filter_eq_of_present {free : Option FreeForm}
    (present : ∀ content ∈ free, content.value ≠ .null) :
    free.filter (fun content => !content.value.isNull) = free := by
  refine filter_eq_of_all fun content held => ?_
  have notNull := present content held
  cases value : content.value with
  | null => exact absurd value notNull
  | _ => rfl

namespace DataLink

theorem read_gives (origin : DraftOrigin) (link : DataLink) :
    (DataLink.read origin).Gives link.toJson link := by
  refine record_gives
    (.cons (carries_written "title" [] (string_gives link.title)) <|
     .cons (carries_written "url" [] (string_gives link.url)) <|
     .cons (carries_mark "targetBlank" link.targetBlank rfl) .nil)
    (by decide) ?_ rfl ?_
  · simp [Entry.Independent]
  · unfold toJson
    cases link.targetBlank <;> rfl

end DataLink

namespace EnumTexts

theorem read_gives (origin : DraftOrigin) (texts : EnumTexts) :
    (EnumTexts.read origin).Gives texts.toJson texts := by
  have list : ∀ (written : Option (List String)), ∀ texts ∈ written,
      Json.ofStrings texts ≠ .null ∧
        (listOf DraftReader.string).Gives (Json.ofStrings texts) texts :=
    fun _ texts _ => ⟨nofun, Json.ofStrings_gives texts⟩
  refine record_gives
    (.cons (carries_written "text" [] (Json.ofStrings_gives texts.text)) <|
     .cons (carries_optional "color" Json.ofStrings texts.color (list _) rfl) <|
     .cons (carries_optional "icon" Json.ofStrings texts.icon (list _) rfl) <|
     .cons (carries_optional "description" Json.ofStrings texts.description (list _) rfl) .nil)
    (by decide) ?_ rfl ?_
  · simp [Entry.Independent]
  · simp [toJson, Entry.members, Json.optionalMember]

end EnumTexts

namespace KindConfig

theorem read_gives (origin : DraftOrigin) (config : KindConfig) :
    (KindConfig.read origin).Gives config.toJson config := by
  refine record_gives
    (.cons (carries_optional "enum" EnumTexts.toJson config.enumTexts
      (fun texts _ => ⟨nofun, texts.read_gives origin⟩) rfl) .nil)
    (by cases origin <;> decide) (List.pairwise_singleton ..) rfl ?_
  simp [toJson, Entry.members]

end KindConfig

namespace FieldConfig

/-- The configurations that a document can say: bounds are numbers, and no setting is null. -/
structure Expressible (config : FieldConfig) : Prop where
  min : ∀ x ∈ config.min, x.isFinite = true
  max : ∀ x ∈ config.max, x.isFinite = true
  interval : ∀ x ∈ config.interval, x.isFinite = true
  color : ∀ free ∈ config.color, free.value ≠ .null
  mappings : ∀ free ∈ config.mappings, free.value ≠ .null
  thresholds : ∀ free ∈ config.thresholds, free.value ≠ .null

/-- What is left of a configuration after writing and reading it: a bound that is not finite is
written as null, and what is null is taken for something that is not set. -/
def afterText (config : FieldConfig) : FieldConfig :=
  { config with
    min := config.min.filter Binary64.isFinite
    max := config.max.filter Binary64.isFinite
    interval := config.interval.filter Binary64.isFinite
    color := config.color.filter fun free => !free.value.isNull
    mappings := config.mappings.filter fun free => !free.value.isNull
    thresholds := config.thresholds.filter fun free => !free.value.isNull }

theorem afterText_of_expressible {config : FieldConfig} (expressible : config.Expressible) :
    config.afterText = config := by
  rw [afterText, filter_eq_of_all expressible.min, filter_eq_of_all expressible.max,
    filter_eq_of_all expressible.interval, FreeForm.filter_eq_of_present expressible.color,
    FreeForm.filter_eq_of_present expressible.mappings,
    FreeForm.filter_eq_of_present expressible.thresholds]

/-- Every configuration is read from its document, as what is left of it. -/
theorem read_gives_afterText (origin : DraftOrigin) (config : FieldConfig) :
    (FieldConfig.read origin).Gives config.toJson config.afterText := by
  have decimals : ∀ n ∈ config.decimals.map UInt16.toNat,
      Json.ofNat n ≠ .null ∧ (natural 16 "u16").Gives (Json.ofNat n) n := by
    intro n present
    obtain ⟨decimals, -, rfl⟩ := Option.map_eq_some_iff.1 present
    have small : decimals.toNat < 0x10000 := decimals.toNat_lt
    refine ⟨?_, natural_gives "u16" small (by omega)⟩
    rw [Json.ofNat_eq (by omega)]
    exact nofun
  have sameDecimals : (config.decimals.map UInt16.toNat).map Nat.toUInt16 = config.decimals := by
    cases config.decimals <;> simp
  refine record_gives
    (.cons (carries_text "displayName" config.displayName rfl) <|
     .cons (carries_text "displayNameFromDS" config.displayNameFromSource rfl) <|
     .cons (carries_text "path" config.path rfl) <|
     .cons (carries_text "description" config.description rfl) <|
     .cons (carries_flag "filterable" config.filterable rfl) <|
     .cons (carries_flag "writeable" config.writeable rfl) <|
     .cons (carries_text "unit" config.unit rfl) <|
     .cons (carries_optional "decimals" Json.ofNat (config.decimals.map UInt16.toNat) decimals
      rfl) <|
     .cons (carries_real "min" config.min rfl) <|
     .cons (carries_real "max" config.max rfl) <|
     .cons (carries_real "interval" config.interval rfl) <|
     .cons (carries_text "noValue" config.noValue rfl) <|
     .cons (carries_optional "links" (fun links => .list (links.map DataLink.toJson)) config.links
      (fun links _ => ⟨nofun, listOf_gives_self fun link _ => link.read_gives origin⟩) rfl) <|
     .cons (carries_free "color" config.color rfl) <|
     .cons (carries_free "mappings" config.mappings rfl) <|
     .cons (carries_free "thresholds" config.thresholds rfl) <|
     .cons (carries_optional "custom" FreeObject.toJson config.custom
      (fun free _ => ⟨nofun, free.read_gives⟩) rfl) <|
     .cons (carries_optional "type" KindConfig.toJson config.kindConfig
      (fun kind _ => ⟨nofun, kind.read_gives origin⟩) rfl) .nil)
    (by cases origin <;> decide) ?_ ?_ ?_
  · simp [Entry.Independent]
  · simp only [List.foldl_cons, List.foldl_nil, sameDecimals, afterText]
  · simp only [toJson, List.flatMap_cons, List.flatMap_nil, Entry.members, List.append_assoc,
      List.append_nil, Option.map_map, Function.comp_def]

end FieldConfig

end Columnar
