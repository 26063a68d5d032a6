import Columnar.Document.Buffered
import Columnar.Proofs.Collections

/-! What the writers of documents leave in a buffer. A writer that succeeds adds the same text to
every buffer and leaves what was there; the writers of the sections, of a document and of an array of
documents add the text that these have by themselves. -/
namespace Columnar

/-- Texts after others, each with a comma before it, or as the first ones. -/
def Json.joined (started : Bool) (texts : List Octets) : Octets :=
  if started then texts.flatMap (0x2C :: ·) else Json.commaSeparated texts

/-- A member of an object as it is written. -/
def Json.memberText (member : String × Octets) : Octets :=
  Json.stringOctets member.1 ++ 0x3A :: member.2

namespace Json

theorem commaSeparated_cons (text : Octets) (texts : List Octets) :
    commaSeparated (text :: texts) = text ++ texts.flatMap (0x2C :: ·) := by
  induction texts generalizing text with
  | nil => simp [commaSeparated]
  | cons second rest ih => simp [commaSeparated, ih]

@[simp] theorem joined_nil (started : Bool) : joined started [] = [] := by cases started <;> rfl

theorem joined_cons (started : Bool) (text : Octets) (texts : List Octets) :
    joined started (text :: texts) =
      (if started then [0x2C] else []) ++ text ++ joined true texts := by
  cases started <;> simp [joined, commaSeparated_cons]

theorem joined_append (started : Bool) (first rest : List Octets) :
    joined started (first ++ rest) =
      joined started first ++ joined (started || !first.isEmpty) rest := by
  induction first generalizing started with
  | nil => simp
  | cons text texts ih => simp [joined_cons, ih]

theorem itemOctets_eq (items : List Json) : itemOctets items = items.map octets := by
  induction items with
  | nil => rfl
  | cons item rest ih => rw [itemOctets, ih, List.map_cons]

/-- Members with the text of their values. -/
def texts (members : List (String × Json)) : List (String × Octets) :=
  members.map fun member => (member.1, member.2.octets)

theorem memberOctets_eq (members : List (String × Json)) : memberOctets members = texts members := by
  induction members with
  | nil => rfl
  | cons member rest ih => rw [memberOctets, ih, texts, texts, List.map_cons]

theorem octets_object (members : List (String × Json)) :
    (object members).octets = objectOctets (texts members) := by
  rw [octets, memberOctets_eq]

theorem octets_list_map {α : Type} (items : List α) (describe : α → Json) :
    (list (items.map describe)).octets =
      listOctets (items.map fun item => (describe item).octets) := by
  rw [octets, itemOctets_eq, List.map_map]
  rfl

end Json

namespace BufferWriter

variable {α β : Type}

/-- On every buffer the writer adds the text and gives the result. -/
def Writes (writer : BufferWriter α) (text : Octets) (result : α) : Prop :=
  ∀ contents, writer.runOn contents = (.ok result, contents ++ text)

/-- On every buffer the writer fails, after adding something or nothing. -/
def Fails (writer : BufferWriter α) (error : Error) : Prop :=
  ∀ contents, ∃ part, writer.runOn contents = (.error error, contents ++ part)

/-- The writer does what the outcome says: it adds the text and gives the result, or it fails. -/
def Follows (writer : BufferWriter α) : Except Error (Octets × α) → Prop
  | .ok (text, result) => writer.Writes text result
  | .error error => writer.Fails error

theorem runOn_bind (writer : BufferWriter α) (next : α → BufferWriter β) (contents : Octets) :
    runOn (writer >>= next) contents =
      match writer.runOn contents with
      | (.ok result, contents) => (next result).runOn contents
      | (.error error, contents) => (.error error, contents) := by
  rw [runOn, ExceptT.run_bind, StateT.run_bind]
  change _ = match StateT.run (ExceptT.run writer) contents with
    | (.ok result, contents) => StateT.run (ExceptT.run (next result)) contents
    | (.error error, contents) => (.error error, contents)
  generalize StateT.run (ExceptT.run writer) contents = outcome
  obtain ⟨result | result, after⟩ := outcome <;> rfl

theorem Writes.of_text {writer : BufferWriter α} {text other : Octets} {result : α}
    (written : writer.Writes text result) (same : text = other) : writer.Writes other result :=
  same ▸ written

theorem Writes.bind {writer : BufferWriter α} {next : α → BufferWriter β} {text more : Octets}
    {first : α} {last : β} (here : writer.Writes text first)
    (after : (next first).Writes more last) : (writer >>= next).Writes (text ++ more) last := by
  intro contents
  rw [runOn_bind, here contents]
  exact (after _).trans (by rw [List.append_assoc])

theorem Writes.bind_fails {writer : BufferWriter α} {next : α → BufferWriter β} {text : Octets}
    {first : α} {error : Error} (here : writer.Writes text first)
    (after : (next first).Fails error) : (writer >>= next).Fails error := by
  intro contents
  obtain ⟨part, failed⟩ := after (contents ++ text)
  refine ⟨text ++ part, ?_⟩
  rw [runOn_bind, here contents, ← List.append_assoc]
  exact failed

theorem Fails.bind {writer : BufferWriter α} {error : Error} (here : writer.Fails error)
    (next : α → BufferWriter β) : (writer >>= next).Fails error := by
  intro contents
  obtain ⟨part, failed⟩ := here contents
  exact ⟨part, by rw [runOn_bind, failed]⟩

theorem writes_pure (result : α) : Writes (pure result) [] result := by
  intro contents
  rw [List.append_nil]
  rfl

theorem writes_put (text : Octets) : (put text).Writes text () := fun _ => rfl

theorem writes_comma (started : Bool) : (comma started).Writes (if started then [0x2C] else []) () := by
  cases started with
  | false => exact writes_pure ()
  | true => exact writes_put [0x2C]

theorem writes_lift (result : α) : Writes (liftM (.ok result : Except Error α)) [] result :=
  writes_pure result

theorem fails_lift (error : Error) :
    Fails (liftM (.error error : Except Error α) : BufferWriter α) error :=
  fun contents => ⟨[], by rw [List.append_nil]; rfl⟩

/-- Items are written with commas between them, up to the first one that cannot be written. -/
theorem follows_items {γ : Type} {inputs : List γ} {write : γ → BufferWriter α}
    {outcome : γ → Except Error (Octets × α)}
    (each : ∀ input ∈ inputs, (write input).Follows (outcome input)) (started : Bool) :
    (items started (inputs.map write)).Follows ((inputs.mapM outcome).map fun found =>
      (Json.joined started (found.map Prod.fst), found.map Prod.snd)) := by
  induction inputs generalizing started with
  | nil => exact .of_text (writes_pure []) (Json.joined_nil started).symm
  | cons input rest ih =>
    have later := ih (fun input member => each input (List.mem_cons_of_mem _ member)) true
    have here := each input (List.mem_cons_self ..)
    rw [List.mapM_cons, List.map_cons, items]
    cases first : outcome input with
    | error error =>
      rw [first] at here
      exact (writes_comma started).bind_fails (here.bind _)
    | ok found =>
      rw [first] at here
      cases others : rest.mapM outcome with
      | error error =>
        rw [others] at later
        exact (writes_comma started).bind_fails (here.bind_fails (later.bind _))
      | ok founds =>
        rw [others] at later
        refine .of_text (.bind (writes_comma started) (.bind here (.bind later (writes_pure _)))) ?_
        rw [List.append_nil, ← List.append_assoc, ← Json.joined_cons]
        rfl

theorem follows_list {γ : Type} {inputs : List γ} {write : γ → BufferWriter α}
    {outcome : γ → Except Error (Octets × α)}
    (each : ∀ input ∈ inputs, (write input).Follows (outcome input)) :
    (list (inputs.map write)).Follows ((inputs.mapM outcome).map fun found =>
      (Json.listOctets (found.map Prod.fst), found.map Prod.snd)) := by
  have inside := follows_items each false
  cases ran : inputs.mapM outcome with
  | error error =>
    rw [ran] at inside
    exact (writes_put [0x5B]).bind_fails (inside.bind _)
  | ok found =>
    rw [ran] at inside
    refine .of_text (.bind (writes_put [0x5B]) (.bind inside
      (.bind (writes_put [0x5D]) (writes_pure _)))) ?_
    rw [List.append_nil]
    rfl

/-- A list of items of which each one is written is written. -/
theorem writes_list {γ : Type} {inputs : List γ} {write : γ → BufferWriter α} {text : γ → Octets}
    {result : γ → α} (each : ∀ input ∈ inputs, (write input).Writes (text input) (result input)) :
    (list (inputs.map write)).Writes (Json.listOctets (inputs.map text)) (inputs.map result) := by
  have follows : ∀ input ∈ inputs, (write input).Follows (.ok (text input, result input)) := each
  have all := follows_list follows
  have ran : inputs.mapM (fun input => (.ok (text input, result input) : Except Error (Octets × α)))
      = .ok (inputs.map fun input => (text input, result input)) :=
    List.mapM_pure
  rw [ran] at all
  change Writes _ _ _ at all
  rw [List.map_map, List.map_map] at all
  exact all

end BufferWriter

open BufferWriter

namespace ObjectWriter

/-- The step writes the members into the object, whichever it has already. -/
def Adds (step : ObjectWriter → BufferWriter ObjectWriter) (members : List (String × Octets)) :
    Prop :=
  ∀ object, (step object).Writes (Json.joined object.started (members.map Json.memberText))
    ⟨object.started || !members.isEmpty⟩

/-- The step writes the members into the object and closes it. -/
def Ends (step : ObjectWriter → BufferWriter Unit) (members : List (String × Octets)) : Prop :=
  ∀ object, (step object).Writes
    (Json.joined object.started (members.map Json.memberText) ++ [0x7D]) ()

variable {members more : List (String × Octets)}

theorem ends_close : Ends close [] := by
  intro object
  rw [List.map_nil, Json.joined_nil]
  exact writes_put [0x7D]

theorem Adds.then {step : ObjectWriter → BufferWriter ObjectWriter}
    {rest : ObjectWriter → BufferWriter Unit} (adds : Adds step members) (ends : Ends rest more) :
    Ends (fun object => step object >>= rest) (members ++ more) := by
  intro object
  have whole := (adds object).bind (ends _)
  rw [← List.append_assoc] at whole
  rw [List.map_append, Json.joined_append, List.isEmpty_map]
  exact whole

/-- An object is what has been written between its braces. -/
theorem Ends.writes {rest : ObjectWriter → BufferWriter Unit} (ends : Ends rest members) :
    (start >>= rest).Writes (Json.objectOctets members) () :=
  .of_text (.bind (.bind (writes_put [0x7B]) (writes_pure _)) (ends {})) rfl

theorem writes_key (object : ObjectWriter) (name : String) :
    (object.key name).Writes ((if object.started then [0x2C] else []) ++ Json.stringOctets name
      ++ [0x3A]) ⟨true⟩ := by
  refine .of_text (.bind (writes_comma object.started)
    (.bind (writes_put (Json.stringOctets name)) (.bind (writes_put [0x3A]) (writes_pure _)))) ?_
  rw [List.append_nil, List.append_assoc]

/-- A member whose value a writer adds in its place. -/
theorem Ends.of_key {α : Type} {name : String} {write : BufferWriter α} {text : Octets}
    {result : α} {rest : α → ObjectWriter → BufferWriter Unit} (written : write.Writes text result)
    (ends : Ends (rest result) members) :
    Ends (fun object => do
      let object ← object.key name
      let result ← write
      rest result object) ((name, text) :: members) := by
  intro object
  refine .of_text (.bind (writes_key object name) (.bind written (ends _))) ?_
  rw [List.map_cons, Json.joined_cons, Json.memberText]
  simp only [List.append_assoc, List.nil_append, List.cons_append]

theorem adds_nothing : Adds pure [] := by
  intro object
  rw [List.map_nil, Json.joined_nil, List.isEmpty_nil, Bool.not_true, Bool.or_false]
  exact writes_pure object

theorem adds_member (name : String) {write : BufferWriter Unit} {text : Octets}
    (written : write.Writes text ()) :
    Adds (fun object => do
      let object ← object.key name
      write
      return object) [(name, text)] := by
  intro object
  rw [List.isEmpty_cons, Bool.not_false, Bool.or_true]
  refine .of_text (.bind (writes_key object name) (.bind written (writes_pure _))) ?_
  rw [List.map_cons, Json.joined_cons, Json.memberText, List.map_nil, Json.joined_nil]
  simp only [List.append_assoc, List.append_nil, List.nil_append, List.cons_append]

theorem adds_entry (name : String) (value : Json) :
    Adds (·.entry name value) (Json.texts [(name, value)]) :=
  adds_member name (writes_put value.octets)

theorem adds_optional (name : String) (value : Option Json) :
    Adds (·.optional name value) (Json.texts (Json.optionalMember name value)) := by
  cases value with
  | none => exact adds_nothing
  | some value => exact adds_entry name value

theorem adds_text (name text : String) :
    Adds (·.text name text) (Json.texts (Json.textMember name text)) := by
  by_cases empty : text.isEmpty
  · simp only [ObjectWriter.text, Json.textMember, if_pos empty]
    exact adds_nothing
  · simp only [ObjectWriter.text, Json.textMember, if_neg empty]
    exact adds_entry name (.string text)

theorem adds_part (wanted : Bool) (name : String) {write : BufferWriter Unit} {text : Octets}
    (written : write.Writes text ()) :
    Adds (·.part wanted name write) (if wanted then [(name, text)] else []) := by
  cases wanted with
  | false => exact adds_nothing
  | true => exact adds_member name written

/-- An object is given up where the value of a member cannot be written. -/
theorem fails_part (object : ObjectWriter) (name : String) {write : BufferWriter Unit}
    {error : Error} (failed : write.Fails error) : (object.part true name write).Fails error :=
  (writes_key object name).bind_fails (failed.bind _)

end ObjectWriter

open ObjectWriter

/-- The rows noted while cells are written are those at which they hold special floats. -/
theorem Column.writes_writeCells {type : FieldType} (row : Nat) (entities : Entities)
    (cells : List (Cell type)) :
    (writeCells row entities cells).Writes (Json.joined (row ≠ 0) (cells.map Cell.document))
      { nan := entities.nan ++ Entities.rowsOf .nan row cells
        infinity := entities.infinity ++ Entities.rowsOf .infinity row cells
        negInfinity := entities.negInfinity ++ Entities.rowsOf .negInfinity row cells } := by
  induction cells generalizing row entities with
  | nil =>
    simp only [List.map_nil, Json.joined_nil, Entities.rowsOf, List.append_nil]
    exact writes_pure entities
  | cons cell rest ih =>
    have started : decide (row + 1 ≠ 0) = true := decide_eq_true (Nat.succ_ne_zero row)
    have later := fun entities => started ▸ ih (row + 1) entities
    rw [writeCells, List.map_cons, Json.joined_cons, List.append_assoc]
    cases special : cell.content.bind type.kind.special? with
    | none =>
      simp only [Entities.rowsOf, special, reduceCtorEq, if_false]
      exact .bind (writes_comma _) (.bind (writes_put _) (later _))
    | some found =>
      have noted := later (entities.note row found)
      cases found <;>
        simp only [Entities.rowsOf, special, Option.some.injEq, reduceCtorEq, if_true, if_false,
          Entities.note, List.append_assoc, List.singleton_append] at noted ⊢ <;>
        exact .bind (writes_comma _) (.bind (writes_put _) noted)

theorem Column.writes_write (column : Column) :
    column.write.Writes column.document (Entities.ofCells column.cells) := by
  have inside := writes_writeCells 0 {} column.cells.toList
  refine .of_text (.bind (writes_put [0x5B]) (.bind inside
      (.bind (writes_put [0x5D]) (writes_pure _)))) ?_
  rw [List.append_nil]
  rfl

theorem FieldType.writes_writeDescription (type : FieldType) :
    type.writeDescription.Writes type.description.octets () := by
  rw [description, Json.octets_object]
  refine .of_text (Ends.writes ((adds_entry "frame" _).then ((adds_optional "nullable" _).then
    ends_close))) ?_
  cases type.nullable <;> rfl

theorem Field.writes_writeDescription (field : Field) :
    field.writeDescription.Writes field.description.octets () := by
  rw [description, Json.octets_object]
  refine .of_text (Ends.writes ((adds_text "name" _).then ((adds_entry "type" _).then
    ((adds_part true "typeInfo" field.type.writes_writeDescription).then
    ((adds_optional "labels" _).then ((adds_optional "config" _).then ends_close)))))) ?_
  have labels : Json.optionalMember "labels"
      (if field.labels.isEmpty then none else some field.labels.toJson) =
      if field.labels.isEmpty then [] else [("labels", field.labels.toJson)] := by
    split <;> rfl
  rw [labels, if_pos rfl]
  simp only [Json.texts, List.map_append, List.map_cons, List.map_nil, List.append_assoc,
    List.append_nil, List.cons_append, List.nil_append]

namespace Frame

theorem writes_writeSchema (frame : Frame) : frame.writeSchema.Writes frame.schema.octets () := by
  rw [schema, Json.octets_object]
  refine .of_text (Ends.writes ((adds_text "name" _).then ((adds_text "refId" _).then
    ((adds_optional "meta" _).then (.of_key (writes_list fun field _ =>
      field.writes_writeDescription) ends_close))))) ?_
  simp only [Json.texts, List.map_append, List.map_cons, List.map_nil, List.append_assoc,
    Json.octets_list_map]

/-- The data section is written when there is one, and nothing of it otherwise. -/
theorem follows_writeData (frame : Frame) :
    frame.writeData.Follows (frame.dataSection.map fun text => (text, ())) := by
  rw [writeData, dataSection]
  cases frame.checkLengths with
  | error error => exact (fails_lift error).bind _
  | ok =>
    have columns := writes_list fun (field : Field) (_ : field ∈ frame.fields) =>
      field.column.writes_write
    have ends := (adds_optional "entities" frame.entityTable?).then ends_close
    refine .of_text (.bind (writes_lift ()) (Ends.writes (.of_key columns ends))) ?_
    rw [List.append_nil, List.nil_append]
    cases frame.entityTable? <;> rfl

/-- A document that has no data section breaks off inside the object. -/
theorem follows_writeDocument (frame : Frame) (parts : FrameParts) :
    (frame.writeDocument parts).Follows ((frame.document parts).map fun text => (text, ())) := by
  have schema := adds_part parts.hasSchema "schema" frame.writes_writeSchema
  have data := frame.follows_writeData
  rw [writeDocument, document]
  cases parts.hasData with
  | false =>
    refine .of_text (Ends.writes (schema.then (adds_nothing.then ends_close))) ?_
    rw [List.append_nil, List.append_nil]
  | true =>
    cases found : frame.dataSection with
    | error error =>
      rw [found] at data
      have opened : start.Writes ([0x7B] ++ []) {} := .bind (writes_put [0x7B]) (writes_pure _)
      exact opened.bind_fails ((schema _).bind_fails ((fails_part _ "data" data).bind _))
    | ok text =>
      rw [found] at data
      exact Ends.writes (schema.then ((adds_part true "data" data).then ends_close))

/-- An array of documents breaks off at the first frame that has no document. -/
theorem follows_writeDocuments (frames : List Frame) (parts : FrameParts) :
    (writeDocuments frames parts).Follows
      ((documents frames parts).map fun text => (text, ())) := by
  have all := follows_list fun (frame : Frame) (_ : frame ∈ frames) =>
    frame.follows_writeDocument parts
  rw [mapM_map_result] at all
  rw [writeDocuments, documents]
  cases ran : frames.mapM fun frame => frame.document parts with
  | error error =>
    rw [ran] at all
    exact all.bind _
  | ok texts =>
    rw [ran] at all
    refine .of_text (.bind all (writes_pure ())) ?_
    rw [List.append_nil, List.map_map]
    exact congrArg Json.listOctets (List.map_id _)

end Frame

end Columnar
