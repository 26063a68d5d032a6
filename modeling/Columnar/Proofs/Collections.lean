import Mathlib.Data.List.Forall2
import Mathlib.Data.List.Nodup
import Mathlib.Data.List.ProdSigma

/-! Steps that may be refused and lists in the order of first meeting. A list of steps succeeds when
every one of them does; a list without repeats keeps each element where it first stood. -/
namespace Columnar

universe u v w

section Steps

variable {ε : Type u} {α : Type v} {β γ : Type w}

theorem bind_eq_ok_iff {step : Except ε β} {next : β → Except ε γ} {result : γ} :
    step.bind next = .ok result ↔ ∃ found, step = .ok found ∧ next found = .ok result := by
  cases step <;> simp [Except.bind]

theorem map_eq_ok_iff {step : Except ε β} {f : β → γ} {result : γ} :
    step.map f = .ok result ↔ ∃ found, step = .ok found ∧ f found = result := by
  cases step <;> simp [Except.map]

theorem mapError_eq_ok_iff {δ : Type u} {step : Except ε β} {f : ε → δ} {result : β} :
    step.mapError f = .ok result ↔ step = .ok result := by
  cases step <;> simp [Except.mapError]

theorem toOption_eq_some_iff {step : Except ε β} {result : β} :
    step.toOption = some result ↔ step = .ok result := by
  cases step <;> simp [Except.toOption]

/-- A list of steps succeeds when each of them does, with the list of what they give. -/
theorem mapM_eq_ok_iff {step : α → Except ε β} {inputs : List α} {results : List β} :
    inputs.mapM step = .ok results ↔
      List.Forall₂ (fun input result => step input = .ok result) inputs results := by
  induction inputs generalizing results with
  | nil =>
    constructor
    · intro ran
      cases ran
      exact .nil
    · rintro ⟨⟩
      rfl
  | cons input rest ih =>
    rw [List.mapM_cons]
    constructor
    · intro ran
      obtain ⟨first, firstRan, ran⟩ := bind_eq_ok_iff.1 ran
      obtain ⟨others, othersRan, ran⟩ := bind_eq_ok_iff.1 ran
      cases ran
      exact .cons firstRan (ih.1 othersRan)
    · rintro (_ | ⟨firstRan, othersRan⟩)
      rw [firstRan]
      refine bind_eq_ok_iff.2 ⟨_, rfl, ?_⟩
      exact bind_eq_ok_iff.2 ⟨_, ih.2 othersRan, rfl⟩

/-- What the steps give can be changed one by one or all together. -/
theorem mapM_map_result {step : α → Except ε β} {change : β → γ} (inputs : List α) :
    inputs.mapM (fun input => (step input).map change) =
      (inputs.mapM step).map (List.map change) := by
  induction inputs with
  | nil => rfl
  | cons input rest ih =>
    rw [List.mapM_cons, List.mapM_cons, ih]
    cases step input with
    | error error => rfl
    | ok found => cases rest.mapM step <;> rfl

/-- Steps each of which is either refused or gives a result stop at the first one that is refused. -/
theorem mapM_ite (refused : α → Prop) [DecidablePred refused] (fault : α → ε) (give : α → β)
    (inputs : List α) :
    inputs.mapM (fun input => if refused input then Except.error (fault input)
        else .ok (give input)) =
      (inputs.find? fun input => decide (refused input)).elim (.ok (inputs.map give))
        fun input => .error (fault input) := by
  induction inputs with
  | nil => rfl
  | cons input rest ih =>
    rw [List.mapM_cons, ih, List.find?_cons]
    by_cases here : refused input
    · simp only [here, if_true, decide_true]
      rfl
    · simp only [here, if_false, decide_false]
      cases rest.find? fun input => decide (refused input) <;> rfl

/-- Steps that all succeed succeed together, and what holds of each result holds of all. -/
theorem exists_mapM_ok {step : α → Except ε β} {property : α → β → Prop} {inputs : List α}
    (ran : ∀ input ∈ inputs, ∃ result, step input = .ok result ∧ property input result) :
    ∃ results, inputs.mapM step = .ok results ∧ List.Forall₂ property inputs results := by
  induction inputs with
  | nil => exact ⟨[], rfl, .nil⟩
  | cons input rest ih =>
    obtain ⟨result, here, holds⟩ := ran input (by simp)
    obtain ⟨results, later, all⟩ := ih fun other member => ran other (by simp [member])
    refine ⟨result :: results, ?_, .cons holds all⟩
    rw [mapM_eq_ok_iff] at later ⊢
    exact .cons here later

/-- A relation between two lists, seen for the elements of the first one only. -/
theorem forall₂_imp_of_mem {R S : α → β → Prop} {first : List α} {second : List β}
    (related : List.Forall₂ R first second) (imp : ∀ a ∈ first, ∀ b, R a b → S a b) :
    List.Forall₂ S first second := by
  induction related with
  | nil => exact .nil
  | cons head _ ih =>
    exact .cons (imp _ (by simp) _ head) (ih fun a member => imp a (by simp [member]))

theorem exists_left_of_forall₂ {R : α → β → Prop} {first : List α} {second : List β}
    (related : List.Forall₂ R first second) {b : β} (member : b ∈ second) :
    ∃ a ∈ first, R a b := by
  induction related with
  | nil => cases member
  | cons head _ ih =>
    rcases List.mem_cons.1 member with rfl | member
    · exact ⟨_, by simp, head⟩
    · obtain ⟨a, inRest, here⟩ := ih member
      exact ⟨a, by simp [inRest], here⟩

theorem exists_right_of_forall₂ {R : α → β → Prop} {first : List α} {second : List β}
    (related : List.Forall₂ R first second) {a : α} (member : a ∈ first) :
    ∃ b ∈ second, R a b := by
  induction related with
  | nil => cases member
  | cons head _ ih =>
    rcases List.mem_cons.1 member with rfl | member
    · exact ⟨_, by simp, head⟩
    · obtain ⟨b, inRest, here⟩ := ih member
      exact ⟨b, by simp [inRest], here⟩

/-- Where each element is related to some other one, the list of these. -/
theorem exists_forall₂ {R : α → β → Prop} {first : List α} (related : ∀ a ∈ first, ∃ b, R a b) :
    ∃ second, List.Forall₂ R first second := by
  induction first with
  | nil => exact ⟨[], .nil⟩
  | cons a rest ih =>
    obtain ⟨b, here⟩ := related a (by simp)
    obtain ⟨second, later⟩ := ih fun other member => related other (by simp [member])
    exact ⟨b :: second, .cons here later⟩

theorem getElem?_of_forall₂ {R : α → β → Prop} {first : List α} {second : List β}
    (related : List.Forall₂ R first second) {index : Nat} {a : α} (here : first[index]? = some a) :
    ∃ b, second[index]? = some b ∧ R a b := by
  induction related generalizing index with
  | nil => simp at here
  | cons head _ ih =>
    cases index with
    | zero =>
      cases here
      exact ⟨_, rfl, head⟩
    | succ index => exact ih (by simpa using here)

/-- When steps succeed, their results are all that they give. -/
theorem eq_filterMap_of_forall₂ {ε : Type w} {step : α → Except ε β} {first : List α}
    {second : List β} (related : List.Forall₂ (fun a b => step a = .ok b) first second) :
    second = first.filterMap fun a => (step a).toOption := by
  induction related with
  | nil => rfl
  | @cons a b _ _ here _ ih =>
    rw [List.filterMap_cons, here]
    exact congrArg (b :: ·) ih

theorem map_eq_of_forall₂ {γ : Type w} {f : α → γ} {g : β → γ} {first : List α} {second : List β}
    (related : List.Forall₂ (fun a b => g b = f a) first second) :
    second.map g = first.map f := by
  induction related with
  | nil => rfl
  | cons head _ ih => rw [List.map_cons, List.map_cons, head, ih]

/-- Two relations of lists one after the other. -/
theorem forall₂_comp_iff {γ : Type w} {R : α → β → Prop} {S : β → γ → Prop} {first : List α}
    {last : List γ} : List.Forall₂ (fun a c => ∃ b, R a b ∧ S b c) first last ↔
      ∃ middle, List.Forall₂ R first middle ∧ List.Forall₂ S middle last := by
  constructor
  · intro related
    induction related with
    | nil => exact ⟨[], .nil, .nil⟩
    | cons head _ ih =>
      obtain ⟨b, left, right⟩ := head
      obtain ⟨middle, lefts, rights⟩ := ih
      exact ⟨b :: middle, .cons left lefts, .cons right rights⟩
  · rintro ⟨middle, lefts, rights⟩
    induction lefts generalizing last with
    | nil =>
      cases rights
      exact .nil
    | cons left _ ih =>
      cases rights with
      | cons right rights => exact .cons ⟨_, left, right⟩ (ih rights)

/-- The element with a given image is found when no two share theirs. -/
theorem find?_of_nodup_map {γ : Type w} [BEq γ] [LawfulBEq γ] {f : α → γ} {items : List α}
    (distinct : (items.map f).Nodup) {item : α} (member : item ∈ items) :
    items.find? (fun other => f other == f item) = some item := by
  induction items with
  | nil => cases member
  | cons first rest ih =>
    obtain ⟨once, distinct⟩ := List.nodup_cons.1 distinct
    rcases List.mem_cons.1 member with rfl | member
    · simp
    · have differ : f first ≠ f item := fun same => once (same ▸ List.mem_map_of_mem member)
      rw [List.find?_cons_of_neg (by simpa using differ), ih distinct member]

/-- Where every element is found, the list of what is found. -/
theorem exists_map_some {find : α → Option β} {property : β → Prop} {items : List α}
    (found : ∀ item ∈ items, ∃ result, find item = some result ∧ property result) :
    ∃ results : List β, items.map find = results.map some ∧
      ∀ result ∈ results, property result := by
  induction items with
  | nil => exact ⟨[], rfl, nofun⟩
  | cons item rest ih =>
    obtain ⟨result, here, holds⟩ := found item (by simp)
    obtain ⟨results, later, all⟩ := ih fun other member => found other (by simp [member])
    exact ⟨result :: results, by simp [here, later], by simpa using ⟨holds, all⟩⟩

theorem filter_eq_of_all {content : Option α} {keep : α → Bool}
    (all : ∀ x ∈ content, keep x = true) : content.filter keep = content := by
  cases content with
  | none => rfl
  | some x => rw [Option.filter_some, if_pos (all x rfl)]

end Steps

section FirstMet

variable {α : Type u} [BEq α] [LawfulBEq α]

private theorem idxOf_filter_lt (keep : α → Bool) {items : List α} {a b : α} (keepA : keep a)
    (keepB : keep b) (earlier : (items.filter keep).idxOf a < (items.filter keep).idxOf b) :
    items.idxOf a < items.idxOf b := by
  induction items with
  | nil => simp at earlier
  | cons first rest ih =>
    by_cases kept : keep first
    · rw [List.filter_cons_of_pos kept] at earlier
      by_cases isB : first == b
      · simp [List.idxOf_cons, isB] at earlier
      · by_cases isA : first == a
        · simp [List.idxOf_cons, isA, isB]
        · simp only [List.idxOf_cons, isA, isB, cond_false] at earlier ⊢
          have := ih (by omega)
          omega
    · rw [List.filter_cons_of_neg kept] at earlier
      have notA : (first == a) = false := by
        rw [beq_eq_false_iff_ne]
        rintro rfl
        exact kept keepA
      have notB : (first == b) = false := by
        rw [beq_eq_false_iff_ne]
        rintro rfl
        exact kept keepB
      simp only [List.idxOf_cons, notA, notB, cond_false]
      have := ih earlier
      omega

/-- Without repeats, elements stand in the order in which they are first met. -/
theorem eraseDups_firstMet (items : List α) :
    items.eraseDups.Pairwise fun a b => items.idxOf a < items.idxOf b := by
  match items with
  | [] => simp
  | first :: rest =>
    have shorter : (rest.filter fun b => !b == first).length < (first :: rest).length :=
      Nat.lt_succ_of_le (List.length_filter_le _ _)
    have ih := eraseDups_firstMet (rest.filter fun b => !b == first)
    have other : ∀ a ∈ (rest.filter fun b => !b == first).eraseDups, (first == a) = false := by
      intro a member
      have differs := (List.mem_filter.1 (List.mem_eraseDups.1 member)).2
      rw [BEq.comm]
      simpa using differs
    rw [List.eraseDups_cons]
    refine List.pairwise_cons.2 ⟨fun a member => ?_, ?_⟩
    · simp [List.idxOf_cons, other a member]
    · apply ih.imp_of_mem
      intro a b memberA memberB earlier
      have keepA := (List.mem_filter.1 (List.mem_eraseDups.1 memberA)).2
      have keepB := (List.mem_filter.1 (List.mem_eraseDups.1 memberB)).2
      have := idxOf_filter_lt (fun b => !b == first) keepA keepB earlier
      simp only [List.idxOf_cons, other a memberA, other b memberB, cond_false]
      omega
termination_by items.length
decreasing_by exact shorter

theorem nodup_eraseDups (items : List α) : items.eraseDups.Nodup :=
  (eraseDups_firstMet items).imp fun earlier same => by
    subst same
    exact Nat.lt_irrefl _ earlier

/-- A list in which nothing repeats is its own list without repeats. -/
theorem eraseDups_of_nodup {items : List α} (distinct : items.Nodup) : items.eraseDups = items := by
  induction items with
  | nil => rfl
  | cons first rest ih =>
    obtain ⟨absent, restDistinct⟩ := List.nodup_cons.1 distinct
    have others : rest.filter (fun b => !b == first) = rest := by
      rw [List.filter_eq_self]
      intro b member
      have differs : b ≠ first := fun same => absent (same ▸ member)
      simpa using differs
    rw [List.eraseDups_cons, others, ih restDistinct]

/-- An element that was met before adds nothing to a list without repeats. -/
theorem eraseDups_concat_of_mem {items : List α} {item : α} (met : item ∈ items) :
    (items ++ [item]).eraseDups = items.eraseDups := by
  rw [List.eraseDups_append]
  simp [List.removeAll, met]

/-- An element that is met for the first time comes last in a list without repeats. -/
theorem eraseDups_concat_of_not_mem {items : List α} {item : α} (new : item ∉ items) :
    (items ++ [item]).eraseDups = items.eraseDups ++ [item] := by
  have alone : [item].eraseDups = [item] := eraseDups_of_nodup (List.nodup_singleton item)
  rw [List.eraseDups_append]
  simp [List.removeAll, new, alone]

theorem eraseDups_replicate (item : α) (count : Nat) :
    (List.replicate (count + 1) item).eraseDups = [item] := by
  rw [List.replicate_succ, List.eraseDups_cons]
  have none : (List.replicate count item).filter (fun b => !b == item) = [] := by simp
  rw [none, List.eraseDups_nil]

/-- The first parts of all pairs, without repeats, are the list they come from. -/
theorem eraseDups_product_fst {β : Type w} {items : List α} {others : List β}
    (distinct : items.Nodup) (some : others ≠ []) :
    ((items ×ˢ others).map Prod.fst).eraseDups = items := by
  induction items with
  | nil => rfl
  | cons item rest ih =>
    obtain ⟨once, distinct⟩ := List.nodup_cons.1 distinct
    obtain ⟨other, more, rfl⟩ := List.exists_cons_of_ne_nil some
    have here : ((other :: more).map (Prod.mk item)).map Prod.fst =
        List.replicate (more.length + 1) item := by
      rw [List.map_map, ← List.length_cons (a := other)]
      exact List.map_const' ..
    have later : ((rest ×ˢ (other :: more)).map Prod.fst).removeAll
        (List.replicate (more.length + 1) item) = (rest ×ˢ (other :: more)).map Prod.fst := by
      apply List.filter_eq_self.2
      intro found member
      obtain ⟨⟨kept, second⟩, inPairs, rfl⟩ := List.mem_map.1 member
      have inRest : kept ∈ rest := (List.mem_product.1 inPairs).1
      have differs : kept ≠ item := fun same => once (same ▸ inRest)
      simp [differs]
    rw [List.product_cons, List.map_append, here, List.eraseDups_append, eraseDups_replicate, later,
      ih distinct]
    rfl

/-- The second parts of all pairs, without repeats, are the list they come from. -/
theorem eraseDups_product_snd {β : Type w} {items : List β} {others : List α}
    (distinct : others.Nodup) (some : items ≠ []) :
    ((items ×ˢ others).map Prod.snd).eraseDups = others := by
  obtain ⟨item, rest, rfl⟩ := List.exists_cons_of_ne_nil some
  have here : (others.map (Prod.mk item)).map Prod.snd = others := by simp [Function.comp_def]
  have later : ((rest ×ˢ others).map Prod.snd).removeAll others = [] := by
    apply List.filter_eq_nil_iff.2
    intro found member
    obtain ⟨⟨first, repeated⟩, inPairs, rfl⟩ := List.mem_map.1 member
    have inOthers : repeated ∈ others := (List.mem_product.1 inPairs).2
    simp [inOthers]
  rw [List.product_cons, List.map_append, here, List.eraseDups_append, later,
    eraseDups_of_nodup distinct, List.eraseDups_nil, List.append_nil]

end FirstMet

section Positions

variable {α : Type u} {items : List α} {item : α}

/-- In a list without repeats, an item has one position. -/
theorem getElem?_iff_of_nodup (distinct : items.Nodup) {position : Nat}
    (here : items[position]? = some item) (other : Nat) :
    items[other]? = some item ↔ other = position := by
  constructor
  · intro there
    obtain ⟨inPosition, atPosition⟩ := List.getElem?_eq_some_iff.1 here
    obtain ⟨inOther, atOther⟩ := List.getElem?_eq_some_iff.1 there
    exact distinct.getElem_inj_iff.1 (atOther.trans atPosition.symm)
  · rintro rfl
    exact here

/-- In a longer list without repeats, an item keeps its position. -/
theorem getElem?_iff_of_longer {longer : List α} (kept : items <+: longer) (distinct : longer.Nodup)
    (member : item ∈ items) (position : Nat) :
    longer[position]? = some item ↔ items[position]? = some item := by
  obtain ⟨found, here⟩ := List.mem_iff_getElem?.1 member
  obtain ⟨later, rfl⟩ := kept
  have there : (items ++ later)[found]? = some item := by
    rw [List.getElem?_append_left (List.getElem?_eq_some_iff.1 here).1, here]
  rw [getElem?_iff_of_nodup distinct there,
    getElem?_iff_of_nodup (List.nodup_append.1 distinct).1 here]

end Positions

theorem length_flatMap_map {α : Type u} {β : Type v} {γ : Type w} (rows : List α)
    (columns : List β) (cell : α → β → γ) :
    (rows.flatMap fun row => columns.map (cell row)).length = rows.length * columns.length := by
  simp [List.length_flatMap]

/-- Every place among all pairs is that of one pair. -/
theorem exists_pair_of_lt {rows columns index : Nat} (inside : index < rows * columns) :
    ∃ row column, row < rows ∧ column < columns ∧ index = row * columns + column := by
  have some : 0 < columns := by
    by_contra none
    simp [Nat.eq_zero_of_not_pos none] at inside
  refine ⟨index / columns, index % columns, ?_, Nat.mod_lt _ some, ?_⟩
  · exact Nat.div_lt_of_lt_mul (by rwa [Nat.mul_comm])
  · rw [Nat.mul_comm, Nat.div_add_mod]

theorem pair_lt {rows columns row column : Nat} (inRows : row < rows)
    (inColumns : column < columns) :
    row * columns + column < rows * columns := by
  have next : (row + 1) * columns ≤ rows * columns := Nat.mul_le_mul_right _ inRows
  rw [Nat.succ_mul] at next
  omega

/-- Where a pair stands among all pairs of two lists. -/
theorem getElem?_flatMap_map {α : Type u} {β : Type v} {γ : Type w} (rows : List α)
    (columns : List β) (cell : α → β → γ) {column : Nat} (row : Nat)
    (inside : column < columns.length) :
    (rows.flatMap fun row => columns.map (cell row))[row * columns.length + column]? =
      rows[row]?.map fun row => cell row columns[column] := by
  induction rows generalizing row with
  | nil => simp
  | cons first rest ih =>
    rw [List.flatMap_cons]
    cases row with
    | zero => simp [List.getElem?_append_left, inside]
    | succ row =>
      have beyond : (columns.map (cell first)).length ≤
          (row + 1) * columns.length + column := by
        rw [List.length_map, Nat.succ_mul]
        omega
      have shifted : (row + 1) * columns.length + column - (columns.map (cell first)).length =
          row * columns.length + column := by
        rw [List.length_map, Nat.succ_mul]
        omega
      rw [List.getElem?_append_right beyond, shifted, ih row, List.getElem?_cons_succ]

section Selection

variable {α : Type u}

/-- Where everything is found, nothing moves. -/
theorem getElem?_filterMap {β : Type w} {look : α → Option β} {items : List α}
    (found : ∀ item ∈ items, (look item).isSome = true) (index : Nat) :
    (items.filterMap look)[index]? = items[index]?.bind look := by
  induction items generalizing index with
  | nil => rfl
  | cons item rest ih =>
    obtain ⟨result, here⟩ := Option.isSome_iff_exists.1 (found item (by simp))
    rw [List.filterMap_cons_some here]
    cases index with
    | zero => simp [here]
    | succ index => exact ih (fun other member => found other (by simp [member])) index

/-- The items at the given places, in the order of the places. -/
def pick (items : List α) (places : List Nat) : List α := places.filterMap (items[·]?)

theorem pick_range (items : List α) : pick items (List.range items.length) = items := by
  apply List.ext_getElem?
  intro index
  have found : ∀ place ∈ List.range items.length, (items[place]?).isSome = true := by
    intro place member
    rw [List.getElem?_eq_getElem (List.mem_range.1 member)]
    rfl
  rw [pick, getElem?_filterMap found]
  by_cases inside : index < items.length
  · rw [List.getElem?_range inside, Option.bind_some]
  · rw [List.getElem?_eq_none (by simpa using inside), List.getElem?_eq_none (by omega)]
    rfl

theorem pick_map {β : Type v} (f : α → β) (items : List α) (places : List Nat) :
    pick (items.map f) places = (pick items places).map f := by
  rw [pick, pick, List.map_filterMap]
  simp only [List.getElem?_map]

variable {items : List α} {places : List Nat}

/-- Items in another order are the same items. -/
theorem pick_perm (permuted : places.Perm (List.range items.length)) :
    (pick items places).Perm items :=
  (permuted.filterMap _).trans (.of_eq (pick_range items))

theorem getElem?_pick (inside : ∀ place ∈ places, place < items.length) (index : Nat) :
    (pick items places)[index]? = places[index]?.bind (items[·]?) := by
  apply getElem?_filterMap
  intro place member
  rw [List.getElem?_eq_getElem (inside place member)]
  rfl

theorem length_pick (inside : ∀ place ∈ places, place < items.length) :
    (pick items places).length = places.length := by
  apply List.filterMap_length_eq_length.2
  intro place member
  rw [List.getElem?_eq_getElem (inside place member)]
  rfl

/-- What stands side by side moves together. -/
theorem pick_zipWith {β : Type v} {γ : Type w} (f : α → β → γ) {others : List β}
    (same : others.length = items.length) (inside : ∀ place ∈ places, place < items.length) :
    List.zipWith f (pick items places) (pick others places) =
      pick (List.zipWith f items others) places := by
  have both : (List.zipWith f items others).length = items.length := by
    rw [List.length_zipWith, same, Nat.min_self]
  apply List.ext_getElem?
  intro index
  rw [List.getElem?_zipWith, getElem?_pick inside, getElem?_pick (same ▸ inside),
    getElem?_pick (both ▸ inside)]
  cases places[index]? with
  | none => rfl
  | some place => rw [Option.bind_some, Option.bind_some, Option.bind_some, List.getElem?_zipWith]

theorem lt_of_perm_range {count : Nat} (permuted : places.Perm (List.range count)) :
    ∀ place ∈ places, place < count :=
  fun _ member => List.mem_range.1 (permuted.mem_iff.1 member)

/-- Every order has one that leads back. -/
theorem exists_pick_back {count : Nat} (permuted : places.Perm (List.range count)) :
    ∃ back : List Nat, back.Perm (List.range count) ∧
      ∀ {β : Type v} (items : List β), items.length = count →
        pick (pick items places) back = items := by
  have distinct : places.Nodup := permuted.nodup_iff.2 List.nodup_range
  have length : places.length = count := permuted.length_eq.trans List.length_range
  have listed : ∀ place, place ∈ places ↔ place < count := fun place =>
    permuted.mem_iff.trans List.mem_range
  have found : ∀ {place}, place < count → places.idxOf place < count := fun inside =>
    length ▸ List.idxOf_lt_length_of_mem ((listed _).2 inside)
  have back : ((List.range count).map places.idxOf).Perm (List.range count) := by
    apply (List.perm_ext_iff_of_nodup ?_ List.nodup_range).2
    · intro index
      rw [List.mem_map, List.mem_range]
      constructor
      · rintro ⟨place, member, rfl⟩
        exact found (List.mem_range.1 member)
      · intro inside
        have bound : index < places.length := length.symm ▸ inside
        exact ⟨places[index], List.mem_range.2 ((listed _).1 (List.getElem_mem bound)),
          distinct.idxOf_getElem index bound⟩
    · apply List.Nodup.map_on _ List.nodup_range
      intro first inFirst second inSecond same
      exact (List.idxOf_inj ((listed _).2 (List.mem_range.1 inFirst))).1 same
  refine ⟨(List.range count).map places.idxOf, back, fun items size => ?_⟩
  apply List.ext_getElem?
  intro index
  have picked : (pick items places).length = count := by
    rw [(pick_perm (size ▸ permuted)).length_eq, size]
  rw [getElem?_pick (picked.symm ▸ lt_of_perm_range back), List.getElem?_map]
  by_cases inside : index < count
  · have there : places[places.idxOf index]? = some index :=
      List.getElem?_eq_some_iff.2
        ⟨length.symm ▸ found inside, List.getElem_idxOf (length.symm ▸ found inside)⟩
    rw [List.getElem?_range inside, Option.map_some, Option.bind_some,
      getElem?_pick (size.symm ▸ lt_of_perm_range permuted), there, Option.bind_some]
  · rw [List.getElem?_eq_none (by simpa using inside), List.getElem?_eq_none (by omega)]
    rfl

end Selection

section Pairs

variable {α : Type u} {β : Type v} [BEq α] [LawfulBEq α] {key asked : α} {value : β}
variable {pairs : List (α × β)}

theorem lookup_cons_of_ne (differ : asked ≠ key) :
    ((key, value) :: pairs).lookup asked = pairs.lookup asked := by
  have other : (asked == key) = false := by simpa using differ
  simp [List.lookup_cons, other]

/-- Without the pairs of one key, the others are found as before. -/
theorem lookup_filter_ne (pairs : List (α × β)) (key asked : α) :
    (pairs.filter fun pair => pair.1 != key).lookup asked =
      if asked == key then none else pairs.lookup asked := by
  induction pairs with
  | nil => simp
  | cons pair rest ih =>
    obtain ⟨first, value⟩ := pair
    by_cases gone : first = key
    · rw [List.filter_cons_of_neg (by simp [gone]), ih]
      split
      next => rfl
      next differ => rw [lookup_cons_of_ne (by simpa [gone] using differ)]
    · rw [List.filter_cons_of_pos (by simp [gone])]
      by_cases found : asked = first
      · rw [if_neg (by simpa [found] using gone), found, List.lookup_cons_self,
          List.lookup_cons_self]
      · rw [lookup_cons_of_ne found, lookup_cons_of_ne found, ih]

theorem mem_of_lookup_eq_some (found : pairs.lookup asked = some value) : (asked, value) ∈ pairs := by
  obtain ⟨before, after, rfl, -⟩ := List.lookup_eq_some_iff.1 found
  simp

/-- What stands under a key when no two pairs share theirs. -/
theorem lookup_eq_some_iff_mem (distinct : (pairs.map Prod.fst).Nodup) :
    pairs.lookup asked = some value ↔ (asked, value) ∈ pairs := by
  induction pairs with
  | nil => simp
  | cons pair rest ih =>
    obtain ⟨key, found⟩ := pair
    rw [List.map_cons, List.nodup_cons] at distinct
    obtain ⟨once, distinct⟩ := distinct
    by_cases same : asked = key
    · subst same
      have absent : (asked, value) ∉ rest := by
        intro member
        exact once (List.mem_map.2 ⟨_, member, rfl⟩)
      simp [absent, eq_comm]
    · simp [lookup_cons_of_ne same, same, ih distinct]

/-- The order of pairs does not matter when no two of them share their key. -/
theorem lookup_eq_of_perm {others : List (α × β)} (distinct : (pairs.map Prod.fst).Nodup)
    (same : others.Perm pairs) : others.lookup asked = pairs.lookup asked := by
  apply Option.ext
  intro value
  rw [lookup_eq_some_iff_mem distinct,
    lookup_eq_some_iff_mem ((same.map Prod.fst).nodup_iff.2 distinct), same.mem_iff]

/-- The value beside a key that occurs once. -/
theorem lookup_zip {keys : List α} (values : List β) {index : Nat} (distinct : keys.Nodup)
    (here : keys[index]? = some asked) : (keys.zip values).lookup asked = values[index]? := by
  induction keys generalizing values index with
  | nil => simp at here
  | cons key rest ih =>
    obtain ⟨once, distinct⟩ := List.nodup_cons.1 distinct
    cases values with
    | nil => simp
    | cons value others =>
      cases index with
      | zero =>
        have same : key = asked := by simpa using here
        simp [same]
      | succ index =>
        have later : rest[index]? = some asked := by simpa using here
        have differ : asked ≠ key := fun same => once (same ▸ List.mem_of_getElem? later)
        rw [List.zip_cons_cons, lookup_cons_of_ne differ, ih others distinct later]
        rfl

theorem lookup_zip_of_not_mem {keys : List α} (values : List β) (absent : asked ∉ keys) :
    (keys.zip values).lookup asked = none := by
  rw [List.lookup_eq_none_iff]
  intro pair member
  have differ : asked ≠ pair.1 := fun same => absent (same ▸ (List.of_mem_zip member).1)
  simpa using differ

end Pairs

end Columnar
