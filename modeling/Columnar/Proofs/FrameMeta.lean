import Columnar.FrameMeta
import Columnar.Proofs.FieldConfig

/-! Metadata and their documents. Metadata are read back from their document as they were, provided
that the figures about the query are numbers and the free part is not null. -/
namespace Columnar

open DraftReader

namespace QueryStat

theorem read_gives (origin : DraftOrigin) {stat : QueryStat} (finite : stat.value.isFinite = true) :
    (QueryStat.read origin).Gives stat.toJson stat := by
  refine record_gives
    (.cons (carries_required "displayName" (string_gives stat.displayName)) <|
     .cons (carries_required "value" (real_gives finite)) <|
     .cons (carries_text "unit" stat.unit rfl) .nil)
    (by decide) ?_ rfl ?_
  · simp [Entry.Independent]
  · simp [toJson, Entry.members, Json.optionalMember]

/-- The value must be there, so a figure that is not finite, and is written as null, is refused. -/
theorem read_refuses (origin : DraftOrigin) {stat : QueryStat}
    (infinite : ¬stat.value.isFinite = true) : (QueryStat.read origin).Refuses stat.toJson := by
  have listed : ("value", Json.ofReal stat.value) ∈
      [("displayName", .string stat.displayName), ("value", Json.ofReal stat.value)] ++
        Json.optionalMember "unit" (stat.unit.map .string) := by
    simp
  refine record_refuses listed rfl fun draft told record result set => ?_
  rw [Json.ofReal, dif_neg infinite] at told
  obtain ⟨content, found, -⟩ := map_eq_ok_iff.1 set
  exact real_refuses_null draft told content found

theorem distinct_toJson (stat : QueryStat) : stat.toJson.Distinct := by
  have value : (Json.ofReal stat.value).Distinct := by
    unfold Json.ofReal
    split <;> trivial
  unfold toJson
  cases stat.unit <;> simp [Json.optionalMember, Json.Distinct, Json.MembersDistinct, value]

end QueryStat

theorem Severity.lookup_name (severity : Severity) :
    Severity.named.lookup severity.name = some severity := by
  cases severity <;> decide

theorem FrameShape.lookup_name (shape : FrameShape) :
    FrameShape.named.lookup shape.name = some shape := by
  cases shape <;> decide

namespace Notice

theorem read_gives (origin : DraftOrigin) (notice : Notice) :
    (Notice.read origin).Gives notice.toJson notice := by
  refine record_gives
    (.cons (carries_required "severity" (oneOf_gives origin notice.severity.lookup_name)) <|
     .cons (carries_required "text" (string_gives notice.text)) <|
     .cons (carries_text "link" notice.link rfl) <|
     .cons (carries_text "inspect" notice.inspect rfl) .nil)
    (by cases origin <;> decide) ?_ rfl ?_
  · simp [Entry.Independent]
  · simp [toJson, Entry.members, Json.optionalMember]

end Notice

namespace FrameMeta

/-- The metadata that a document can say: figures are numbers, and the free part is not null. -/
structure Expressible (info : FrameMeta) : Prop where
  stats : ∀ stat ∈ info.stats, stat.value.isFinite = true
  custom : ∀ free ∈ info.custom, free.value ≠ .null

/-- Two numbers of a version as they are written. -/
private def versionJson (version : Nat × Nat) : Json :=
  .list [Json.ofNat version.1, Json.ofNat version.2]

/-- Every figure about the query is a number. -/
def FiguresFinite (info : FrameMeta) : Prop := ∀ stat ∈ info.stats, stat.value.isFinite = true

/-- What is left of metadata after writing and reading them: a free part that is null is taken for
one that is not there. -/
def afterText (info : FrameMeta) : FrameMeta :=
  { info with custom := info.custom.filter fun free => !free.value.isNull }

/-- The members of the document, and what reading them does to metadata. -/
private def entries (info : FrameMeta) : List (Entry FrameMeta) :=
  [⟨"type", info.shape.map fun shape => .string shape.name, ({ · with shape := info.shape })⟩,
    ⟨"typeVersion", (info.typeVersion.map fun pair => (pair.1.toNat, pair.2.toNat)).map versionJson,
      ({ · with typeVersion := info.typeVersion })⟩,
    ⟨"path", info.path.map .string, ({ · with path := info.path })⟩,
    ⟨"pathSeparator", info.pathSeparator.map .string,
      ({ · with pathSeparator := info.pathSeparator })⟩,
    ⟨"custom", info.custom.map FreeForm.value, ({ · with custom := info.afterText.custom })⟩,
    ⟨"stats", if info.stats.isEmpty then none else some (.list (info.stats.map QueryStat.toJson)),
      ({ · with stats := info.stats })⟩,
    ⟨"notices", if info.notices.isEmpty then none else some (.list (info.notices.map Notice.toJson)),
      ({ · with notices := info.notices })⟩,
    ⟨"channel", info.channel.map .string, ({ · with channel := info.channel })⟩,
    ⟨"preferredVisualisationType", info.preferredVisualisationType.map .string,
      ({ · with preferredVisualisationType := info.preferredVisualisationType })⟩,
    ⟨"executedQueryString", info.executedQueryString.map .string,
      ({ · with executedQueryString := info.executedQueryString })⟩]

private theorem toJson_eq (info : FrameMeta) :
    info.toJson = .object (info.entries.flatMap Entry.members) := by
  simp only [toJson, entries, List.flatMap_cons, List.flatMap_nil, Entry.members, List.append_assoc,
    List.append_nil, Option.map_map, Function.comp_def, Json.optionalMember_unless,
    List.isEmpty_map, versionJson]

/-- The two numbers of a version are read as they were written. -/
private theorem version_gives (origin : DraftOrigin) (pair : UInt32 × UInt32) :
    (pairOf origin (natural 32 "u32")).Gives (versionJson (pair.1.toNat, pair.2.toNat))
      (pair.1.toNat, pair.2.toNat) := by
  have number : ∀ n : UInt32, (natural 32 "u32").Gives (Json.ofNat n.toNat) n.toNat := by
    intro n
    exact have small : n.toNat < 0x100000000 := n.toNat_lt
      natural_gives "u32" small (by omega)
  exact pairOf_gives origin (number pair.1) (number pair.2)

/-- Metadata are read from their document, as what is left of them, when the figures are numbers. -/
theorem read_gives_afterText (origin : DraftOrigin) {info : FrameMeta}
    (finite : info.FiguresFinite) :
    (FrameMeta.read origin).Gives info.toJson info.afterText := by
  have version : ∀ pair ∈ info.typeVersion.map fun pair => (pair.1.toNat, pair.2.toNat),
      versionJson pair ≠ .null ∧
        (pairOf origin (natural 32 "u32")).Gives (versionJson pair) pair := by
    intro pair present
    obtain ⟨numbers, -, rfl⟩ := Option.map_eq_some_iff.1 present
    exact ⟨nofun, version_gives origin numbers⟩
  have sameVersion : (info.typeVersion.map fun pair => (pair.1.toNat, pair.2.toNat)).map
      (fun pair => (pair.1.toUInt32, pair.2.toUInt32)) = info.typeVersion := by
    cases info.typeVersion <;> simp
  refine record_gives
    (.cons (carries_optional "type" (fun shape => .string shape.name) info.shape
      (fun shape _ => ⟨nofun, oneOf_gives origin shape.lookup_name⟩) rfl) <|
     .cons (carries_optional "typeVersion" versionJson _ version rfl) <|
     .cons (carries_text "path" info.path rfl) <|
     .cons (carries_text "pathSeparator" info.pathSeparator rfl) <|
     .cons (carries_free "custom" info.custom rfl) <|
     .cons (carries_items "stats" QueryStat.toJson info.stats
      (fun stat member => QueryStat.read_gives origin (finite stat member)) rfl) <|
     .cons (carries_items "notices" Notice.toJson info.notices
      (fun notice _ => notice.read_gives origin) rfl) <|
     .cons (carries_text "channel" info.channel rfl) <|
     .cons (carries_text "preferredVisualisationType" info.preferredVisualisationType rfl) <|
     .cons (carries_text "executedQueryString" info.executedQueryString rfl) .nil)
    (by cases origin <;> decide) ?_ ?_ info.toJson_eq
  · simp [Entry.Independent]
  · simp only [List.foldl_cons, List.foldl_nil, sameVersion, afterText]

theorem afterText_of_expressible {info : FrameMeta} (expressible : info.Expressible) :
    info.afterText = info := by
  rw [afterText, FreeForm.filter_eq_of_present expressible.custom]

/-- Metadata with a figure that is not finite are refused. -/
theorem read_refuses (origin : DraftOrigin) {info : FrameMeta} (stray : ¬info.FiguresFinite) :
    (FrameMeta.read origin).Refuses info.toJson := by
  obtain ⟨stat, member, infinite⟩ : ∃ stat ∈ info.stats, ¬stat.value.isFinite = true := by
    simpa [FiguresFinite] using stray
  have refused : (listOf (QueryStat.read origin)).Refuses
      (.list (info.stats.map QueryStat.toJson)) :=
    listOf_refuses (List.mem_map_of_mem member) (QueryStat.read_refuses origin infinite)
  have listed : ("stats", Json.list (info.stats.map QueryStat.toJson)) ∈
      info.entries.flatMap Entry.members := by
    have some : info.stats ≠ [] := List.ne_nil_of_mem member
    simp [entries, Entry.members, Json.optionalMember, some]
  rw [toJson_eq]
  refine record_refuses listed rfl fun draft told record result set => ?_
  obtain ⟨content, found, -⟩ := map_eq_ok_iff.1 set
  exact refused draft told content found

/-- No name repeats in the document of metadata, whatever the figures are. -/
theorem distinct_toJson (info : FrameMeta) : info.toJson.Distinct := by
  have texts : ∀ {β : Type} {write : β → String} {written : Option β},
      ∀ value ∈ written.map (Json.string ∘ write), value.Distinct := by
    rintro β write written value present
    obtain ⟨content, -, rfl⟩ := Option.map_eq_some_iff.1 present
    trivial
  have lists : ∀ {β : Type} {write : β → Json} {items : List β},
      (∀ item, (write item).Distinct) →
        ∀ value ∈ if items.isEmpty then none else some (Json.list (items.map write)),
          value.Distinct := by
    rintro β write items distinct value present
    split at present
    · cases present
    · cases present
      refine Json.itemsDistinct_iff.2 fun item listed => ?_
      obtain ⟨source, -, rfl⟩ := List.mem_map.1 listed
      exact distinct source
  have version : ∀ value ∈ (info.typeVersion.map fun pair =>
      (pair.1.toNat, pair.2.toNat)).map versionJson, value.Distinct := by
    intro value present
    rw [Option.map_map] at present
    obtain ⟨pair, -, rfl⟩ := Option.map_eq_some_iff.1 present
    exact (version_gives .value pair).distinct
  have custom : ∀ value ∈ info.custom.map FreeForm.value, value.Distinct := by
    intro value present
    obtain ⟨free, -, rfl⟩ := Option.map_eq_some_iff.1 present
    exact Json.distinct_of_ordered free.ordered
  have names : (info.entries.map Entry.name).Nodup := by
    simp [entries]
  rw [toJson_eq]
  refine distinct_members names ?_
  simp only [entries, List.forall_mem_cons]
  exact ⟨texts, version, texts, texts, custom, lists QueryStat.distinct_toJson,
    lists fun notice => (notice.read_gives .value).distinct, texts, texts, texts,
    List.forall_mem_nil _⟩

end FrameMeta

end Columnar
