import Columnar.Proofs.Binary.Rounding
import Columnar.Proofs.Document.Contents
import Columnar.Proofs.Json.Made

/-! What the sections of an accepted document say. Whatever form a section has, what is read from it
can be written again: its bounds and figures are numbers, its free parts are not null, and nothing in
it is deeper than the place where it stands allows. -/
namespace Columnar

open DraftReader

theorem JsonNumber.isFinite_toBinary64 (number : JsonNumber) :
    number.toBinary64.isFinite = true := by
  cases number with
  | whole n inRange =>
    apply Binary64.isFinite_ofInt
    omega
  | real x finite => exact finite

namespace Json

/-- The value of a member that is written only when there is something to write. -/
theorem forall_mem_optionalMember {α : Type} {key : String} {content : Option α} {write : α → Json}
    {property : String × Json → Prop} :
    (∀ member ∈ optionalMember key (content.map write), property member) ↔
      ∀ x ∈ content, property (key, write x) := by
  cases content <;> simp [optionalMember]

theorem depth_list_map {α : Type} {write : α → Json} {bound : Nat} (items : List α)
    (inside : ∀ item, (write item).depth ≤ bound) : (list (items.map write)).depth ≤ bound + 1 := by
  rw [depth_list_le_iff]
  intro item member
  obtain ⟨source, -, rfl⟩ := List.mem_map.1 member
  exact inside source

theorem depth_ofReal (x : Binary64) (bound : Nat) : (ofReal x).depth ≤ bound := by
  unfold ofReal
  split <;> exact Nat.zero_le bound

theorem depth_ofNat (n bound : Nat) : (ofNat n).depth ≤ bound := by
  rw [ofNat]
  cases JsonNumber.ofInt? n <;> exact Nat.zero_le bound

end Json

namespace DraftReader

variable {α β : Type} {width depth : Nat} {read : DraftReader β} {keep : α → Prop}

theorem makes_real : real.Makes width depth fun x => x.isFinite = true := by
  intro value _ _ result ran
  cases value with
  | number n =>
    cases ran
    exact n.isFinite_toBinary64
  | _ => cases ran

/-- An optional member that does not matter to what holds of the record. -/
theorem keeps_aside {name : String} {inList : Bool} {set : Option β → α → α}
    (keeps : ∀ content record, keep record → keep (set content record)) :
    (optional name inList read set).Keeps width depth keep :=
  keeps_optional (makes_any _) fun content record _ holds => keeps content record holds

/-- A member with a default that does not matter to what holds of the record. -/
theorem defaulted_aside {names : List String} {set : β → α → α}
    (keeps : ∀ content record, keep record → keep (set content record)) :
    (defaulted names read set).Keeps width depth keep :=
  keeps_defaulted (makes_any _) fun content record _ holds => keeps content record holds

end DraftReader

theorem DataLink.depth_toJson (link : DataLink) : link.toJson.depth ≤ 1 := by
  rw [toJson, Json.depth_object_le_iff]
  cases link.targetBlank <;> simp [Json.depth]

theorem EnumTexts.depth_toJson (texts : EnumTexts) : texts.toJson.depth ≤ 2 := by
  have strings : ∀ texts : List String, (Json.ofStrings texts).depth ≤ 1 := by
    intro texts
    exact Json.depth_list_map texts fun _ => Nat.le_refl 0
  rw [toJson, Json.depth_object_le_iff]
  simp only [List.forall_mem_append, Json.forall_mem_optionalMember, List.forall_mem_singleton]
  exact ⟨⟨⟨strings _, fun texts _ => strings texts⟩, fun texts _ => strings texts⟩,
    fun texts _ => strings texts⟩

theorem KindConfig.depth_toJson (config : KindConfig) : config.toJson.depth ≤ 3 := by
  rw [toJson, Json.depth_object_le_iff, Json.forall_mem_optionalMember]
  exact fun texts _ => texts.depth_toJson

namespace FieldConfig

/-- A configuration that can be written, with free parts within a depth. -/
structure Accepted (depth : Nat) (config : FieldConfig) : Prop extends config.Expressible where
  colorDepth : ∀ free ∈ config.color, free.value.depth ≤ depth
  mappingsDepth : ∀ free ∈ config.mappings, free.value.depth ≤ depth
  thresholdsDepth : ∀ free ∈ config.thresholds, free.value.depth ≤ depth
  customDepth : ∀ free ∈ config.custom, free.toJson.depth ≤ depth

/-- A configuration that is read can be written again. -/
theorem read_accepts (origin : DraftOrigin) {width depth : Nat} :
    (FieldConfig.read origin).Makes width (depth + 1) (Accepted depth) := by
  have bound : (nullable real).Makes width depth fun content =>
      ∀ x ∈ content, x.isFinite = true := makes_optional makes_real
  have free : (nullable FreeForm.read).Makes width depth fun content =>
      ∀ free ∈ content, free.value ≠ .null ∧ free.value.Within width depth := makes_freeForm
  have object : (nullable FreeObject.read).Makes width depth fun content =>
      ∀ free ∈ content, free.toJson.Within width depth := makes_optional makes_freeObject
  refine makes_record ⟨⟨nofun, nofun, nofun, nofun, nofun, nofun⟩, nofun, nofun, nofun, nofun⟩ ?_
  simp only [List.forall_mem_cons]
  and_intros
  -- Neither texts and marks nor links and kinds matter.
  all_goals try exact keeps_aside fun _ _ holds => { holds with }
  · exact keeps_optional bound fun _ _ finite holds => { holds with min := finite }
  · exact keeps_optional bound fun _ _ finite holds => { holds with max := finite }
  · exact keeps_optional bound fun _ _ finite holds => { holds with interval := finite }
  · exact keeps_optional free fun _ _ said holds => { holds with
      color := fun free present => (said free present).1
      colorDepth := fun free present => (said free present).2.depth }
  · exact keeps_optional free fun _ _ said holds => { holds with
      mappings := fun free present => (said free present).1
      mappingsDepth := fun free present => (said free present).2.depth }
  · exact keeps_optional free fun _ _ said holds => { holds with
      thresholds := fun free present => (said free present).1
      thresholdsDepth := fun free present => (said free present).2.depth }
  · exact keeps_optional object fun _ _ said holds => { holds with
      customDepth := fun free present => (said free present).depth }
  · exact List.forall_mem_nil _

/-- The document of a configuration is no deeper than its free parts, or than its table of texts. -/
theorem Accepted.depth_toJson {depth : Nat} {config : FieldConfig} (accepted : config.Accepted depth)
    (room : 3 ≤ depth) : config.toJson.depth ≤ depth + 1 := by
  have text : ∀ content : Option String, ∀ s ∈ content, (Json.string s).depth ≤ depth :=
    fun _ _ _ => Nat.zero_le depth
  have flag : ∀ content : Option Bool, ∀ b ∈ content, (Json.bool b).depth ≤ depth :=
    fun _ _ _ => Nat.zero_le depth
  have real : ∀ content : Option Binary64, ∀ x ∈ content, (Json.ofReal x).depth ≤ depth :=
    fun _ x _ => Json.depth_ofReal x depth
  rw [toJson, Json.depth_object_le_iff]
  simp only [List.forall_mem_append, Json.forall_mem_optionalMember]
  and_intros
  all_goals try first | exact text _ | exact flag _ | exact real _
  · exact fun n _ => Json.depth_ofNat _ depth
  · exact fun links _ => Nat.le_trans (Json.depth_list_map links DataLink.depth_toJson) (by omega)
  · exact accepted.colorDepth
  · exact accepted.mappingsDepth
  · exact accepted.thresholdsDepth
  · exact accepted.customDepth
  · exact fun kind _ => Nat.le_trans kind.depth_toJson room

end FieldConfig

theorem QueryStat.depth_toJson (stat : QueryStat) : stat.toJson.depth ≤ 1 := by
  have text : ∀ s ∈ stat.unit, (Json.string s).depth ≤ 0 := fun _ _ => Nat.le_refl 0
  rw [toJson, Json.depth_object_le_iff]
  simp only [List.forall_mem_append, List.forall_mem_cons, Json.forall_mem_optionalMember]
  exact ⟨⟨Nat.le_refl 0, Json.depth_ofReal _ 0, List.forall_mem_nil _⟩, text⟩

theorem Notice.depth_toJson (notice : Notice) : notice.toJson.depth ≤ 1 := by
  have text : ∀ content : Option String, ∀ s ∈ content, (Json.string s).depth ≤ 0 :=
    fun _ _ _ => Nat.le_refl 0
  rw [toJson, Json.depth_object_le_iff]
  simp only [List.forall_mem_append, List.forall_mem_cons, Json.forall_mem_optionalMember]
  exact ⟨⟨⟨Nat.le_refl 0, Nat.le_refl 0, List.forall_mem_nil _⟩, text _⟩, text _⟩

theorem QueryStat.read_accepts (origin : DraftOrigin) {width depth : Nat} :
    (QueryStat.read origin).Makes width (depth + 1) fun stat => stat.value.isFinite = true := by
  have zero : Binary64.zero.isFinite = true := by decide +kernel
  refine makes_record zero ?_
  simp only [List.forall_mem_cons]
  refine ⟨keeps_required (makes_any _) fun _ _ _ holds => holds,
    keeps_required makes_real fun _ _ finite _ => finite,
    keeps_aside fun _ _ holds => holds, List.forall_mem_nil _⟩

namespace FrameMeta

/-- Metadata that can be written, with a free part within a depth. -/
structure Accepted (depth : Nat) (info : FrameMeta) : Prop extends info.Expressible where
  customDepth : ∀ free ∈ info.custom, free.value.depth ≤ depth

/-- Metadata that are read can be written again. -/
theorem read_accepts (origin : DraftOrigin) {width depth : Nat} :
    (FrameMeta.read origin).Makes width (depth + 3) (Accepted (depth + 2)) := by
  have free : (nullable FreeForm.read).Makes width (depth + 2) fun content =>
      ∀ free ∈ content, free.value ≠ .null ∧ free.value.Within width (depth + 2) := makes_freeForm
  have stats : (listOf (QueryStat.read origin)).Makes width (depth + 2) fun stats =>
      stats.length ≤ width ∧ ∀ stat ∈ stats, stat.value.isFinite = true :=
    makes_listOf (QueryStat.read_accepts origin)
  refine makes_record ⟨⟨List.forall_mem_nil _, nofun⟩, nofun⟩ ?_
  simp only [List.forall_mem_cons]
  and_intros
  all_goals try first
    | exact keeps_aside fun _ _ holds => { holds with }
    | exact defaulted_aside fun _ _ holds => { holds with }
  · exact keeps_optional free fun _ _ said holds => { holds with
      custom := fun free present => (said free present).1
      customDepth := fun free present => (said free present).2.depth }
  · exact keeps_defaulted stats fun _ _ said holds => { holds with stats := said.2 }
  · exact List.forall_mem_nil _

/-- The document of metadata is no deeper than the free part, or than the lists of figures. -/
theorem Accepted.depth_toJson {depth : Nat} {info : FrameMeta} (accepted : info.Accepted depth)
    (room : 2 ≤ depth) : info.toJson.depth ≤ depth + 1 := by
  have text : ∀ content : Option String, ∀ s ∈ content, (Json.string s).depth ≤ depth :=
    fun _ _ _ => Nat.zero_le depth
  have listed : ∀ {key : String} {items : List Json}, (Json.list items).depth ≤ 2 →
      ∀ member ∈ (if items.isEmpty then [] else [(key, Json.list items)]),
        member.2.depth ≤ depth := by
    intro key items inside member present
    split at present
    · cases present
    · cases List.mem_singleton.1 present
      exact Nat.le_trans inside room
  rw [toJson, Json.depth_object_le_iff]
  simp only [List.forall_mem_append, Json.forall_mem_optionalMember]
  and_intros
  all_goals try exact text _
  · intro version _
    refine Nat.le_trans (Json.depth_list_le_iff.2 ?_) (Nat.le_trans (by decide : 1 ≤ 2) room)
    simp only [List.forall_mem_cons]
    exact ⟨Json.depth_ofNat _ 0, Json.depth_ofNat _ 0, List.forall_mem_nil _⟩
  · exact accepted.customDepth
  · exact listed (Json.depth_list_map info.stats QueryStat.depth_toJson)
  · exact listed (Json.depth_list_map info.notices Notice.depth_toJson)

end FrameMeta

section Sections

variable {width depth : Nat}

/-- A field whose configuration can be written. -/
structure FieldContent.Accepted (depth : Nat) (content : FieldContent) : Prop where
  config : ∀ config ∈ content.config, config.Accepted depth

theorem FieldContent.read_accepts (origin : DraftOrigin) :
    (FieldContent.read origin).Makes width (depth + 2) (Accepted depth) := by
  have config : (nullable (FieldConfig.read origin)).Makes width (depth + 1) fun content =>
      ∀ config ∈ content, config.Accepted depth := makes_optional (FieldConfig.read_accepts origin)
  refine makes_record ⟨by rintro _ ⟨⟩⟩ ?_
  simp only [List.forall_mem_cons]
  exact ⟨defaulted_aside fun _ _ holds => { holds with },
    keeps_aside fun _ _ holds => { holds with },
    keeps_aside fun _ _ holds => { holds with },
    keeps_aside fun _ _ holds => { holds with },
    keeps_optional config fun _ _ accepted _ => { config := accepted }, List.forall_mem_nil _⟩

/-- A schema whose metadata and configurations can be written. -/
structure SchemaContent.Accepted (depth : Nat) (content : SchemaContent) : Prop where
  info : ∀ info ∈ content.info, info.Accepted (depth + 2)
  fields : ∀ field ∈ content.fields, field.Accepted depth

theorem SchemaContent.read_accepts (origin : DraftOrigin) :
    (SchemaContent.read origin).Makes width (depth + 4) (Accepted depth) := by
  have info : (nullable (FrameMeta.read origin)).Makes width (depth + 3) fun content =>
      ∀ info ∈ content, info.Accepted (depth + 2) := makes_optional (FrameMeta.read_accepts origin)
  have fields : (listOf (FieldContent.read origin)).Makes width (depth + 3) fun fields =>
      fields.length ≤ width ∧ ∀ field ∈ fields, field.Accepted depth :=
    makes_listOf (FieldContent.read_accepts origin)
  refine makes_record ⟨by rintro _ ⟨⟩, List.forall_mem_nil _⟩ ?_
  simp only [List.forall_mem_cons]
  exact ⟨defaulted_aside fun _ _ holds => { holds with },
    defaulted_aside fun _ _ holds => { holds with },
    keeps_optional info fun _ _ accepted holds => { holds with info := accepted },
    keeps_defaulted fields fun _ _ accepted holds => { holds with fields := accepted.2 },
    List.forall_mem_nil _⟩

/-- A data section whose columns are within a length, and whose cells are within a depth. -/
structure DataContent.Accepted (width depth : Nat) (content : DataContent) : Prop where
  short : ∀ column ∈ content.columns, column.length ≤ width
  cells : ∀ column ∈ content.columns, ∀ value ∈ column,
    value.Ordered ∧ value.Within width depth

theorem DataContent.read_accepts (origin : DraftOrigin) :
    (DataContent.read origin).Makes width (depth + 3) (Accepted width depth) := by
  have columns : (listOf (listOf json)).Makes width (depth + 2) fun columns =>
      columns.length ≤ width ∧ ∀ column ∈ columns, column.length ≤ width ∧
        ∀ value ∈ column, value.Ordered ∧ value.Within width depth :=
    makes_listOf (makes_listOf makes_json)
  refine makes_record ⟨List.forall_mem_nil _, List.forall_mem_nil _⟩ ?_
  simp only [List.forall_mem_cons]
  exact ⟨keeps_defaulted columns fun _ _ accepted _ => {
      short := fun column member => (accepted.2 column member).1
      cells := fun column member => (accepted.2 column member).2 },
    defaulted_aside fun _ _ holds => { holds with }, List.forall_mem_nil _⟩

/-- A document with sections that can be written. -/
structure DocumentContent.Accepted (width depth : Nat) (content : DocumentContent) : Prop where
  schema : ∀ schema ∈ content.schema, schema.Accepted depth
  data : ∀ data ∈ content.data, data.Accepted width (depth + 1)

theorem DocumentContent.read_accepts (origin : DraftOrigin) :
    (DocumentContent.read origin).Makes width (depth + 5) (Accepted width depth) := by
  have schema : (nullable (SchemaContent.read origin)).Makes width (depth + 4) fun content =>
      ∀ schema ∈ content, schema.Accepted depth := makes_optional (SchemaContent.read_accepts origin)
  have data : (nullable (DataContent.read origin)).Makes width (depth + 4) fun content =>
      ∀ data ∈ content, data.Accepted width (depth + 1) :=
    makes_optional (DataContent.read_accepts origin)
  refine makes_record ⟨by rintro _ ⟨⟩, by rintro _ ⟨⟩⟩ ?_
  simp only [List.forall_mem_cons]
  exact ⟨keeps_optional schema fun _ _ accepted holds => { holds with schema := accepted },
    keeps_optional data fun _ _ accepted holds => { holds with data := accepted },
    List.forall_mem_nil _⟩

/-- What is read from a value in order and within bounds can be written. -/
theorem DocumentContent.ofJson_accepts {value : Json} (ordered : value.Ordered)
    (within : value.Within width (depth + 5)) {content : DocumentContent}
    (read : ofJson value = .ok content) : content.Accepted width depth := by
  cases value with
  | object members =>
    obtain ⟨-, -, read⟩ := bind_eq_ok_iff.1 read
    obtain ⟨-, -, read⟩ := bind_eq_ok_iff.1 read
    exact DocumentContent.read_accepts .value _ ordered within content (mapError_eq_ok_iff.1 read)
  | _ => cases read

end Sections

end Columnar
