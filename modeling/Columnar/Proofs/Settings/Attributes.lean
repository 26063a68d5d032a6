import Mathlib.Data.List.Dedup
import Columnar.Settings.Telemetry
import Columnar.Proofs.Collections
import Columnar.Proofs.Text.Pieces

/-! Attributes stated from outside. A text states pairs between commas, and is refused as a whole when
one of them is none. The pairs are taken over one by one, each to the end of the list, so that the last
one of a key counts and stands where it was stated; the name of the service is not to be changed. -/
namespace Columnar.TelemetrySettings

/-! ## The pairs of a text -/

/-- The pieces of a text between commas, blank ones left out. -/
def statedPieces (text : String) : List (List Char) :=
  (Text.splitChars ',' text.toList).filter fun piece => !piece.all Text.isBlank

/-- There is no equals sign in the piece, or nothing but blanks before the first one. -/
def Malformed (piece : List Char) : Prop :=
  '=' ∉ piece ∨ (piece.takeWhile (· != '=')).all Text.isBlank = true

instance : DecidablePred Malformed := fun _ => inferInstanceAs (Decidable (_ ∨ _))

/-- What stands before the first equals sign and what behind it, each without the blanks around it. -/
def statedPair (piece : List Char) : String × String :=
  (String.ofList (Text.trimChars (piece.takeWhile (· != '='))),
    String.ofList (Text.trimChars (piece.dropWhile (· != '=')).tail))

/-- What is said of a malformed piece. -/
def refusal (piece : List Char) : Error :=
  .setting (.resourcePair (String.ofList (Text.trimChars piece)))

variable {pairs resource : List (String × String)} {environment : Environment} {text : String}

theorem keyValue_trimChars (piece : List Char) : keyValue (Text.trimChars piece) =
    if Malformed piece then .error (refusal piece) else .ok (statedPair piece) := by
  by_cases marked : '=' ∈ piece
  · rw [keyValue, Text.cutAt_trimChars (by decide) marked]
    dsimp only
    rw [Text.trimChars_dropWhile, Text.trimChars_trimEnd]
    by_cases blank : (piece.takeWhile (· != '=')).all Text.isBlank = true
    · rw [if_pos (Text.isEmpty_trimChars.trans blank), if_pos (.inr blank)]
      rfl
    · rw [if_neg (by rwa [Text.isEmpty_trimChars]), if_neg fun bad => bad.elim (absurd marked) blank]
      rfl
  · have uncut : Text.cutAt '=' (Text.trimChars piece) = none :=
      Text.cutAt_eq_none_iff.2 fun member => marked (Text.mem_of_mem_trimChars member)
    rw [keyValue, uncut, if_pos (.inl marked)]
    rfl

theorem attributes_eq (text : String) : attributes text =
    ((statedPieces text).find? fun piece => decide (Malformed piece)).elim
      (.ok ((statedPieces text).map statedPair)) fun piece => .error (refusal piece) := by
  have kept : (fun piece : List Char => !piece.isEmpty) ∘ Text.trimChars =
      fun piece => !piece.all Text.isBlank :=
    funext fun _ => congrArg not Text.isEmpty_trimChars
  have read : keyValue ∘ Text.trimChars = _ := funext keyValue_trimChars
  rw [attributes, List.filter_map, List.mapM_map, kept, read]
  exact mapM_ite Malformed refusal statedPair _

theorem attributes_of_sound (sound : ∀ piece ∈ statedPieces text, ¬Malformed piece) :
    attributes text = .ok ((statedPieces text).map statedPair) := by
  have none : (statedPieces text).find? (fun piece => decide (Malformed piece)) = none :=
    List.find?_eq_none.2 fun piece listed => by simpa using sound piece listed
  rw [attributes_eq, none, Option.elim_none]

/-- Of several malformed pieces, the first one is named. -/
theorem attributes_of_malformed (bad : ∃ piece ∈ statedPieces text, Malformed piece) :
    ∃ piece ∈ statedPieces text, Malformed piece ∧ attributes text = .error (refusal piece) := by
  have some : ((statedPieces text).find? fun piece => decide (Malformed piece)).isSome = true := by
    simpa using bad
  obtain ⟨piece, found⟩ := Option.isSome_iff_exists.1 some
  refine ⟨piece, List.mem_of_find?_eq_some found, ?_, by rw [attributes_eq, found]; rfl⟩
  simpa using List.find?_some found

/-! ## The list of attributes -/

theorem keys_setAttribute (resource : List (String × String)) (pair : String × String) :
    (setAttribute resource pair).map Prod.fst =
      if pair.1 = serviceKey then resource.map Prod.fst
      else (resource.map Prod.fst).filter (· != pair.1) ++ [pair.1] := by
  rw [setAttribute]
  split
  next => rfl
  next => rw [List.map_append, List.filter_map]; rfl

theorem lookup_setAttribute (resource : List (String × String)) (pair : String × String)
    (asked : String) : (setAttribute resource pair).lookup asked =
      if asked ≠ serviceKey ∧ asked = pair.1 then some pair.2 else resource.lookup asked := by
  rw [setAttribute]
  split
  next fixed => rw [if_neg fun both => both.1 (both.2.trans fixed)]
  next other =>
    rw [List.lookup_append, lookup_filter_ne]
    by_cases same : asked = pair.1
    · subst same
      rw [if_pos (beq_self_eq_true _), if_pos ⟨other, rfl⟩, Option.none_or, List.lookup_cons_self]
    · rw [if_neg (by simpa using same), if_neg fun both => same both.2, lookup_cons_of_ne same,
        List.lookup_nil, Option.or_none]

/-- The keys of a text but for the one that is never taken from it. -/
def statedKeys (pairs : List (String × String)) : List String :=
  (pairs.map Prod.fst).filter (· != serviceKey)

/-- A key that moves to the end before others do. -/
theorem filter_moved (keys stated : List String) (key : String) :
    (keys.filter (· != key) ++ [key]).filter (· ∉ stated) ++ stated.dedup =
      keys.filter (· ∉ key :: stated) ++ (key :: stated).dedup := by
  have others : (keys.filter (· != key)).filter (· ∉ stated) = keys.filter (· ∉ key :: stated) := by
    rw [List.filter_filter]
    apply List.filter_congr
    intro other _
    rw [Bool.eq_iff_iff]
    simp [and_comm]
  rw [List.filter_append, others, List.append_assoc, List.dedup_cons]
  split
  next again => rw [List.filter_cons_of_neg (by simpa using again), List.filter_nil, List.nil_append]
  next last => rw [List.filter_cons_of_pos (by simpa using last), List.filter_nil,
    List.singleton_append]

/-- Untouched keys keep their place; behind them the others stand in the order in which each was
stated last. -/
theorem keys_foldl_setAttribute (pairs resource : List (String × String)) :
    (pairs.foldl setAttribute resource).map Prod.fst =
      (resource.map Prod.fst).filter (· ∉ statedKeys pairs) ++ (statedKeys pairs).dedup := by
  induction pairs generalizing resource with
  | nil => simp [statedKeys]
  | cons pair rest ih =>
    rw [List.foldl_cons, ih, keys_setAttribute]
    split
    next fixed =>
      have same : statedKeys (pair :: rest) = statedKeys rest :=
        List.filter_cons_of_neg (by simp [fixed])
      rw [same]
    next other =>
      have more : statedKeys (pair :: rest) = pair.1 :: statedKeys rest :=
        List.filter_cons_of_pos (by simp [other])
      rw [more, filter_moved]

theorem lookup_foldl_setAttribute (pairs resource : List (String × String)) (asked : String) :
    (pairs.foldl setAttribute resource).lookup asked =
      if asked = serviceKey then resource.lookup asked
      else (pairs.reverse.lookup asked).or (resource.lookup asked) := by
  induction pairs generalizing resource with
  | nil => simp
  | cons pair rest ih =>
    obtain ⟨key, value⟩ := pair
    rw [List.foldl_cons, ih, lookup_setAttribute, List.reverse_cons, List.lookup_append,
      Option.or_assoc]
    by_cases fixed : asked = serviceKey
    · rw [if_pos fixed, if_pos fixed, if_neg fun both => both.1 fixed]
    · rw [if_neg fixed, if_neg fixed]
      by_cases same : asked = key
      · rw [if_pos ⟨fixed, same⟩, same, List.lookup_cons_self, Option.some_or]
      · rw [if_neg fun both => same both.2, lookup_cons_of_ne same, List.lookup_nil, Option.none_or]

/-! ## The settings read from variables -/

/-- Everything else that the settings are made of can be read. -/
structure Usable (environment : Environment) (level : String) : Prop where
  named : ∀ name, environment.lookup serviceVariable = some name → Text.isBlankText name = false
  level : ∃ found, LogLevel.parse level = .ok found
  format : ∀ word, environment.lookup formatVariable = some word →
    ∃ found, LogFormat.parse word = .ok found

/-- The name of the service, without the blanks around it when it comes from outside. -/
def configuredName (environment : Environment) (service : String) : String :=
  ((environment.lookup serviceVariable).map Text.trim).getD service

/-- The text of the attributes; where there is none, nothing is stated. -/
def attributesText (environment : Environment) : String :=
  (environment.lookup attributesVariable).getD ""

/-- Attributes as they should be after some have been stated, the last one of those with the same key
counting. -/
structure Attributed (service : String) (pairs resource : List (String × String)) : Prop where
  distinct : (resource.map Prod.fst).Nodup
  first : resource.head? = some (serviceKey, service)
  last : ∀ key ≠ serviceKey, ∀ value, pairs.reverse.lookup key = some value →
    resource.lookup key = some value
  untouched : namespaceKey ∉ pairs.map Prod.fst → resource.lookup namespaceKey = some "tsframe"
  order : resource.map Prod.fst =
    [serviceKey, namespaceKey].filter (· ∉ statedKeys pairs) ++ (statedKeys pairs).dedup

theorem attributed_ofService (service : String) (level : LogLevel) (pairs : List (String × String)) :
    Attributed service pairs ((ofService service level).withAttributes pairs).resource := by
  rw [withAttributes]
  have order : (pairs.foldl setAttribute (ofService service level).resource).map Prod.fst =
      [serviceKey, namespaceKey].filter (· ∉ statedKeys pairs) ++ (statedKeys pairs).dedup :=
    keys_foldl_setAttribute ..
  have values := lookup_foldl_setAttribute pairs (ofService service level).resource
  refine ⟨?_, ?_, fun key other value stated => ?_, fun unstated => ?_, order⟩
  · rw [order]
    refine List.Nodup.append (List.Nodup.filter _ (by decide)) (List.nodup_dedup _) ?_
    intro key untouched stated
    rw [List.mem_filter, decide_eq_true_iff] at untouched
    exact untouched.2 (List.mem_dedup.1 stated)
  · have kept : serviceKey ∉ statedKeys pairs := by simp [statedKeys]
    rw [List.filter_cons_of_pos (by simpa using kept), List.cons_append] at order
    obtain ⟨⟨key, value⟩, rest, resource, rfl, -⟩ := List.map_eq_cons_iff.1 order
    have found := values serviceKey
    rw [resource, if_pos rfl, List.lookup_cons_self] at found
    rw [resource, List.head?_cons]
    exact congrArg (Option.map (Prod.mk serviceKey)) found
  · rw [values, if_neg other, stated, Option.some_or]
  · have none : pairs.reverse.lookup namespaceKey = none := by
      rw [List.lookup_eq_none_iff]
      intro pair member
      rw [bne_iff_ne]
      rintro same
      exact unstated (List.mem_map.2 ⟨pair, List.mem_reverse.1 member, same.symm⟩)
    rw [values, if_neg (by decide), none]
    rfl

theorem setting_service (service : String)
    (named : ∀ name, environment.lookup serviceVariable = some name →
      Text.isBlankText name = false) :
    environment.setting serviceVariable service serviceName =
      .ok (configuredName environment service) := by
  rw [Environment.setting, configuredName]
  cases found : environment.lookup serviceVariable with
  | none => rfl
  | some name =>
    dsimp only
    rw [serviceName, named name found]
    rfl

theorem setting_attributes (environment : Environment) :
    environment.setting attributesVariable [] attributes =
      attributes (attributesText environment) := by
  rw [Environment.setting, attributesText]
  cases environment.lookup attributesVariable <;> rfl

theorem ofEnvironment_eq {level : String} (usable : Usable environment level) (service : String) :
    ∃ (logLevel : LogLevel) (format : LogFormat), ofEnvironment environment service level =
      (attributes (attributesText environment)).map fun pairs =>
        { ofService (configuredName environment service) logLevel with format }.withAttributes
          pairs := by
  obtain ⟨logLevel, leveled⟩ := usable.level
  obtain ⟨format, formatted⟩ : ∃ format,
      environment.setting formatVariable LogFormat.json LogFormat.parse = .ok format := by
    rw [Environment.setting]
    cases found : environment.lookup formatVariable with
    | none => exact ⟨_, rfl⟩
    | some word => exact usable.format word found
  refine ⟨logLevel, format, ?_⟩
  simp only [ofEnvironment, setting_service service usable.named, leveled, setting_attributes]
  simp only [bind, Except.bind, ofService]
  rw [formatted]
  cases attributes (attributesText environment) <;> rfl

/-- Attributes are refused for a piece that is no pair and for nothing else. Otherwise every key has one
value, the one stated last, except that the service keeps its name. -/
theorem ofEnvironment_attributes {level : String} (usable : Usable environment level)
    (service : String) :
    ((∃ error, ofEnvironment environment service level = .error error) ↔
      ∃ piece ∈ statedPieces (attributesText environment), Malformed piece) ∧
    (∀ error, ofEnvironment environment service level = .error error →
      ∃ piece ∈ statedPieces (attributesText environment), Malformed piece ∧
        error = refusal piece) ∧
    ((∀ piece ∈ statedPieces (attributesText environment), ¬Malformed piece) →
      ∃ settings, ofEnvironment environment service level = .ok settings ∧
        settings.service = configuredName environment service ∧
        Attributed (configuredName environment service)
          ((statedPieces (attributesText environment)).map statedPair) settings.resource) := by
  obtain ⟨logLevel, format, ran⟩ := ofEnvironment_eq usable service
  by_cases bad : ∃ piece ∈ statedPieces (attributesText environment), Malformed piece
  · obtain ⟨piece, listed, malformed, refused⟩ := attributes_of_malformed bad
    rw [ran, refused]
    refine ⟨iff_of_true ⟨_, rfl⟩ bad, ?_, fun sound => absurd malformed (sound piece listed)⟩
    rintro _ ⟨⟩
    exact ⟨piece, listed, malformed, rfl⟩
  · have sound : ∀ piece ∈ statedPieces (attributesText environment), ¬Malformed piece :=
      fun piece listed malformed => bad ⟨piece, listed, malformed⟩
    rw [ran, attributes_of_sound sound]
    refine ⟨iff_of_false ?_ bad, ?_, fun _ => ⟨_, rfl, rfl, ?_⟩⟩
    · rintro ⟨_, ⟨⟩⟩
    · rintro _ ⟨⟩
    · exact attributed_ofService _ logLevel _

/-- An environment that gives the service a name and states attributes. -/
def gaugeEnvironment (attributes : String) : Environment :=
  [(serviceVariable, " gauge "), (formatVariable, "Text"), (attributesVariable, attributes)]

/-- One attribute stated twice, a try to rename the service, and another group for it. -/
def gaugeAttributes : String := "zone=a, service.namespace=tools,,service.name=x, zone = b=c "

theorem ofEnvironment_gauge : Usable (gaugeEnvironment gaugeAttributes) "warn" ∧
    (∀ piece ∈ statedPieces gaugeAttributes, ¬Malformed piece) ∧
    ofEnvironment (gaugeEnvironment gaugeAttributes) "meter" "warn" =
      .ok ⟨"gauge", .warn, .text,
        [(serviceKey, "gauge"), (namespaceKey, "tools"), ("zone", "b=c")]⟩ ∧
    Attributed "gauge" ((statedPieces gaugeAttributes).map statedPair)
      [(serviceKey, "gauge"), (namespaceKey, "tools"), ("zone", "b=c")] ∧
    ∃ error, ofEnvironment (gaugeEnvironment "zone=a,, =b,unit") "meter" "warn" = .error error := by
  have usable : ∀ attributes, Usable (gaugeEnvironment attributes) "warn" := by
    refine fun attributes => ⟨?_, ⟨.warn, rfl⟩, ?_⟩
    · rintro _ ⟨⟩
      rfl
    · rintro _ ⟨⟩
      exact ⟨.text, rfl⟩
  have pieces : statedPieces gaugeAttributes = ["zone=a".toList, " service.namespace=tools".toList,
      "service.name=x".toList, " zone = b=c ".toList] := rfl
  have sound : ∀ piece ∈ statedPieces gaugeAttributes, ¬Malformed piece := by
    rw [pieces]
    decide
  obtain ⟨settings, ran, -, attributed⟩ := (ofEnvironment_attributes (usable _) "meter").2.2 sound
  have computed : ofEnvironment (gaugeEnvironment gaugeAttributes) "meter" "warn" =
      .ok ⟨"gauge", .warn, .text,
        [(serviceKey, "gauge"), (namespaceKey, "tools"), ("zone", "b=c")]⟩ := rfl
  cases computed.symm.trans ran
  have others : statedPieces "zone=a,, =b,unit" =
      ["zone=a".toList, " =b".toList, "unit".toList] := rfl
  have listed : " =b".toList ∈ statedPieces "zone=a,, =b,unit" := by
    rw [others]
    exact .tail _ (.head _)
  exact ⟨usable _, sound, computed, attributed,
    (ofEnvironment_attributes (usable _) "meter").1.2 ⟨" =b".toList, listed, by decide⟩⟩

/-- The piece at fault is named, without the blanks around it. -/
example : attributes "zone=a,, =b,unit" = .error (refusal "=b".toList) := rfl

end Columnar.TelemetrySettings
