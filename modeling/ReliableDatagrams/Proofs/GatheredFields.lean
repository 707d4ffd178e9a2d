import Mathlib.Data.Option.Basic
import Mathlib.Logic.Function.Basic
import ReliableDatagrams.Proofs.NormalForms

/-!
# Maps of fields as gathered arrays

A map of fields has one place for each kind and joins the arrays of a kind in the order in which they come
in. So an entry is known from what was added for its kind since the kind was last cleared, and only the
order within a kind counts.

Were arrays filed under kinds in general, an array could stand under a kind that is not its own, and the
next one for this kind would have to replace it. This never comes about: a `Filing` has room for such
arrays and counts their replacements, and there is none in any run (`entries_join_in_order`).
-/

namespace ReliableDatagrams.Proofs

/-- An element of an array. -/
inductive Element where
  | boolean (value : Bool)
  | byte (value : UInt8)
  | char (value : Char)
  | short (value : Int16)
  | integer (value : Int32)
  | float (value : Binary32)

def elementsOf : FieldValues → List Element
  | .booleans values => values.map .boolean
  | .bytes values => values.map .byte
  | .chars text => text.toList.map .char
  | .shorts values => values.map .short
  | .integers values => values.map .integer
  | .floats values => values.map .float

/-- An array behind another one, if the two are of one kind. -/
def joined? : FieldValues → FieldValues → Option FieldValues
  | .booleans front, .booleans back => some (.booleans (front ++ back))
  | .bytes front, .bytes back => some (.bytes (front ++ back))
  | .chars front, .chars back => some (.chars (front ++ back))
  | .shorts front, .shorts back => some (.shorts (front ++ back))
  | .integers front, .integers back => some (.integers (front ++ back))
  | .floats front, .floats back => some (.floats (front ++ back))
  | _, _ => none

def emptyOf : FieldKind → FieldValues
  | .boolean => .booleans []
  | .byte => .bytes []
  | .char => .chars ""
  | .short => .shorts []
  | .integer => .integers []
  | .float => .floats []

lemma kind_emptyOf (kind : FieldKind) : (emptyOf kind).kind = kind := by
  cases kind <;> rfl

lemma elementsOf_emptyOf (kind : FieldKind) : elementsOf (emptyOf kind) = [] := by
  cases kind <;> rfl

lemma joined?_of_kind {front back : FieldValues} (h : front.kind = back.kind) :
    ∃ whole, joined? front back = some whole ∧ whole.kind = back.kind ∧
      elementsOf whole = elementsOf front ++ elementsOf back := by
  cases front <;> cases back <;> cases h <;> exact ⟨_, rfl, rfl, by simp [elementsOf]⟩

lemma eq_of_elementsOf {first second : FieldValues} (hkind : first.kind = second.kind)
    (h : elementsOf first = elementsOf second) : first = second := by
  cases first <;> cases second <;> cases hkind <;>
    simpa [elementsOf, List.map_inj_right, String.toList_inj] using h

/-- What is done with a map. -/
inductive MapStep where
  | merge (values : FieldValues)
  /-- Starts anew with the arrays that are given. -/
  | collect (values : List FieldValues)
  | remove (kind : FieldKind)

def mapStep (fields : FieldMap) : MapStep → FieldMap
  | .merge values => fields.merge values
  | .collect values => .ofList values
  | .remove kind => fields.erase kind

def mapAfter (steps : List MapStep) : FieldMap :=
  steps.foldl mapStep .empty

def ofKind (kind : FieldKind) (values : List FieldValues) : List FieldValues :=
  values.filter fun values => values.kind = kind

/-- What has been added for a kind after a step, by what had been before. -/
def addedStep (kind : FieldKind) (added : List FieldValues) : MapStep → List FieldValues
  | .merge values => added ++ ofKind kind [values]
  | .collect values => ofKind kind values
  | .remove other => if other = kind then [] else added

/-- The arrays that were added for a kind since the last step that cleared it. -/
def addedSince (kind : FieldKind) (steps : List MapStep) : List FieldValues :=
  steps.foldl (addedStep kind) []

/-- An entry consists of what was added for its kind, and is there if anything was. -/
structure IsGathered (kind : FieldKind) (added : List FieldValues) (entry : Option FieldValues) :
    Prop where
  absent : entry = none ↔ added = []
  kind : ∀ values, entry = some values → values.kind = kind
  elements : ∀ values, entry = some values → elementsOf values = added.flatMap elementsOf

lemma get?_merge (fields : FieldMap) (values : FieldValues) (kind : FieldKind) :
    (fields.merge values).get? kind =
      if kind = values.kind then joined? ((fields.get? kind).getD (emptyOf kind)) values
      else fields.get? kind := by
  obtain ⟨booleans, bytes, chars, shorts, integers, floats⟩ := fields
  cases values <;> cases kind <;> try rfl
  · cases booleans <;> rfl
  · cases bytes <;> rfl
  · cases chars <;> rfl
  · cases shorts <;> rfl
  · cases integers <;> rfl
  · cases floats <;> rfl

lemma get?_erase (fields : FieldMap) (other kind : FieldKind) :
    (fields.erase other).get? kind = if other = kind then none else fields.get? kind := by
  cases other <;> cases kind <;> rfl

lemma get?_empty (kind : FieldKind) : FieldMap.empty.get? kind = none := by
  cases kind <;> rfl

lemma eq_of_get? {first second : FieldMap} (h : ∀ kind, first.get? kind = second.get? kind) :
    first = second := by
  cases first
  cases second
  rw [FieldMap.mk.injEq]
  exact ⟨Option.map_injective (fun _ _ => FieldValues.booleans.inj) (h .boolean),
    Option.map_injective (fun _ _ => FieldValues.bytes.inj) (h .byte),
    Option.map_injective (fun _ _ => FieldValues.chars.inj) (h .char),
    Option.map_injective (fun _ _ => FieldValues.shorts.inj) (h .short),
    Option.map_injective (fun _ _ => FieldValues.integers.inj) (h .integer),
    Option.map_injective (fun _ _ => FieldValues.floats.inj) (h .float)⟩

section Gathered

variable {kind : FieldKind} {added : List FieldValues}

lemma isGathered_none (kind : FieldKind) : IsGathered kind [] none where
  absent := iff_of_true rfl rfl
  kind := nofun
  elements := nofun

lemma IsGathered.unique {first second : Option FieldValues} (hfirst : IsGathered kind added first)
    (hsecond : IsGathered kind added second) : first = second := by
  cases first with
  | none => exact (hsecond.absent.2 (hfirst.absent.1 rfl)).symm
  | some values =>
    cases second with
    | none => exact hfirst.absent.2 (hsecond.absent.1 rfl)
    | some others =>
      have hkind := (hfirst.kind _ rfl).trans (hsecond.kind _ rfl).symm
      have helements := (hfirst.elements _ rfl).trans (hsecond.elements _ rfl).symm
      rw [eq_of_elementsOf hkind helements]

lemma IsGathered.joined {entry : Option FieldValues} {values : FieldValues}
    (h : IsGathered values.kind added entry) :
    ∃ whole, joined? (entry.getD (emptyOf values.kind)) values = some whole ∧
      IsGathered values.kind (added ++ [values]) (some whole) := by
  have hfront : (entry.getD (emptyOf values.kind)).kind = values.kind ∧
      elementsOf (entry.getD (emptyOf values.kind)) = added.flatMap elementsOf := by
    cases entry with
    | none =>
      -- The first array of a kind is joined with an empty one.
      rw [h.absent.1 rfl]
      exact ⟨kind_emptyOf _, elementsOf_emptyOf _⟩
    | some front => exact ⟨h.kind _ rfl, h.elements _ rfl⟩
  obtain ⟨whole, hwhole, hkind, helements⟩ := joined?_of_kind hfront.1
  have hall : elementsOf whole = (added ++ [values]).flatMap elementsOf := by
    rw [helements, hfront.2, List.flatMap_append, List.flatMap_singleton]
  refine ⟨whole, hwhole, ⟨?_, fun _ h => ?_, fun _ h => ?_⟩⟩
  · exact iff_of_false (Option.some_ne_none _)
      (List.append_ne_nil_of_right_ne_nil _ (List.cons_ne_nil _ _))
  · rw [← Option.some.inj h, hkind]
  · rw [← Option.some.inj h, hall]

variable {fields : FieldMap}

lemma IsGathered.merge (h : IsGathered kind added (fields.get? kind)) (values : FieldValues) :
    IsGathered kind (added ++ ofKind kind [values]) ((fields.merge values).get? kind) := by
  rw [get?_merge, ofKind, List.filter_singleton]
  by_cases hkind : kind = values.kind
  · subst hkind
    obtain ⟨whole, hwhole, hgathered⟩ := h.joined
    rw [if_pos rfl, hwhole]
    simpa using hgathered
  · have hother : ¬values.kind = kind := fun hsame => hkind hsame.symm
    rw [if_neg hkind]
    simpa [hother] using h

lemma IsGathered.mergeAll (h : IsGathered kind added (fields.get? kind))
    (values : List FieldValues) :
    IsGathered kind (added ++ ofKind kind values) ((fields.mergeAll values).get? kind) := by
  induction values generalizing fields added with
  | nil => rwa [ofKind, List.filter_nil, List.append_nil]
  | cons first rest ih =>
    have hrest := ih (h.merge first)
    rw [List.append_assoc, ofKind, ofKind, ← List.filter_append] at hrest
    exact hrest

lemma isGathered_ofList (kind : FieldKind) (values : List FieldValues) :
    IsGathered kind (ofKind kind values) ((FieldMap.ofList values).get? kind) := by
  have hempty : IsGathered kind [] (FieldMap.empty.get? kind) := by
    rw [get?_empty]
    exact isGathered_none kind
  exact hempty.mergeAll values

lemma IsGathered.step (h : IsGathered kind added (fields.get? kind)) (step : MapStep) :
    IsGathered kind (addedStep kind added step) ((mapStep fields step).get? kind) := by
  cases step with
  | merge values => exact h.merge values
  | collect values => exact isGathered_ofList kind values
  | remove other =>
    rw [mapStep, get?_erase, addedStep]
    split
    · exact isGathered_none kind
    · exact h

end Gathered

lemma isGathered_mapAfter (kind : FieldKind) (steps : List MapStep) :
    IsGathered kind (addedSince kind steps) ((mapAfter steps).get? kind) := by
  -- The steps go on from any map, not only from the empty one.
  have hrun : ∀ added fields, IsGathered kind added (FieldMap.get? fields kind) →
      IsGathered kind (steps.foldl (addedStep kind) added)
        ((steps.foldl mapStep fields).get? kind) := by
    induction steps with
    | nil => exact fun _ _ h => h
    | cons step rest ih => exact fun _ _ h => ih _ _ (h.step step)
  exact hrun [] .empty (isGathered_ofList kind [])

lemma isGathered_self (fields : FieldMap) (kind : FieldKind) :
    IsGathered kind (fields.get? kind).toList (fields.get? kind) := by
  cases hentry : fields.get? kind with
  | none => exact isGathered_none kind
  | some values =>
    refine ⟨iff_of_false (Option.some_ne_none _) (List.cons_ne_nil _ _), fun _ h => ?_, fun _ h => ?_⟩
    · rw [← Option.some.inj h]
      exact kind_of_get? hentry
    · rw [← Option.some.inj h, Option.toList_some, List.flatMap_singleton]

lemma mergeAll_congr {first second : List FieldValues}
    (h : ∀ kind, ofKind kind first = ofKind kind second) (fields : FieldMap) :
    fields.mergeAll first = fields.mergeAll second := by
  refine eq_of_get? fun kind => ?_
  -- Both entries are gathered from the same arrays, so there is no need to compare the runs.
  have hfirst := (isGathered_self fields kind).mergeAll first
  rw [h kind] at hfirst
  exact hfirst.unique ((isGathered_self fields kind).mergeAll second)

lemma ofKind_exchange {first second : FieldValues} (h : first.kind ≠ second.kind)
    (before after : List FieldValues) (kind : FieldKind) :
    ofKind kind (before ++ first :: second :: after) =
      ofKind kind (before ++ second :: first :: after) := by
  unfold ofKind
  rw [List.filter_append, List.filter_append]
  by_cases hfirst : first.kind = kind
  · have hsecond : ¬second.kind = kind := fun hsame => h (hfirst.trans hsame.symm)
    simp [hfirst, hsecond]
  · simp [List.filter_cons, hfirst]

/-- Arrays that are filed under kinds, where nothing keeps an array from standing under a kind that is
not its own. -/
structure Filing where
  get? : FieldKind → Option FieldValues
  /-- How often an array had to give way to another one. -/
  replacements : Nat

namespace Filing

def empty : Filing where
  get? _ := none
  replacements := 0

/-- Puts an array behind what stands under its kind, or in its place if the two are not of one kind. -/
def merge (filing : Filing) (values : FieldValues) : Filing :=
  let entry := (filing.get? values.kind).getD (emptyOf values.kind)
  match joined? entry values with
  | some whole => { filing with get? := Function.update filing.get? values.kind (some whole) }
  | none =>
    { get? := Function.update filing.get? values.kind (some values)
      replacements := filing.replacements + 1 }

def step (filing : Filing) : MapStep → Filing
  | .merge values => filing.merge values
  | .collect values => values.foldl merge { filing with get? := empty.get? }
  | .remove kind => { filing with get? := Function.update filing.get? kind none }

/-- The filing that some steps lead to, from an empty one. -/
def after (steps : List MapStep) : Filing :=
  steps.foldl step empty

def toList (filing : Filing) : List FieldValues :=
  FieldKind.all.filterMap filing.get?

/-- The entries that are found by their type, each under its kind. -/
def typed (filing : Filing) : FieldMap where
  booleans := match filing.get? .boolean with
    | some (.booleans values) => some values
    | _ => none
  bytes := match filing.get? .byte with
    | some (.bytes values) => some values
    | _ => none
  chars := match filing.get? .char with
    | some (.chars text) => some text
    | _ => none
  shorts := match filing.get? .short with
    | some (.shorts values) => some values
    | _ => none
  integers := match filing.get? .integer with
    | some (.integers values) => some values
    | _ => none
  floats := match filing.get? .float with
    | some (.floats values) => some values
    | _ => none

/-- The entries of a map, of which none has been replaced. -/
def ofMap (fields : FieldMap) : Filing where
  get? := fields.get?
  replacements := 0

lemma ofMap_empty : ofMap .empty = empty :=
  congrArg (Filing.mk · 0) (funext get?_empty)

/-- What stands in a map can be joined with whatever is added for its kind. -/
lemma merge_ofMap (fields : FieldMap) (values : FieldValues) :
    (ofMap fields).merge values = ofMap (fields.merge values) := by
  obtain ⟨whole, hwhole, -⟩ := (isGathered_self fields values.kind).joined
  have hupdate : Function.update fields.get? values.kind (some whole) =
      (fields.merge values).get? := by
    funext kind
    rw [Function.update_apply, get?_merge]
    split
    · rename_i hkind
      rw [hkind, hwhole]
    · rfl
  unfold merge ofMap
  dsimp only
  rw [hwhole, ← hupdate]

lemma step_ofMap (fields : FieldMap) (step : MapStep) :
    (ofMap fields).step step = ofMap (mapStep fields step) := by
  cases step with
  | merge values => exact merge_ofMap fields values
  | collect values =>
    have hstart : { ofMap fields with get? := empty.get? } = ofMap .empty := ofMap_empty.symm
    rw [Filing.step, hstart]
    exact List.foldl_hom ofMap fun fields values => merge_ofMap fields values
  | remove kind =>
    refine congrArg (Filing.mk · 0) (funext fun other => ?_)
    rw [Function.update_apply, mapStep, get?_erase]
    exact if_congr eq_comm rfl rfl

lemma after_eq (steps : List MapStep) : after steps = ofMap (mapAfter steps) := by
  rw [after, ← ofMap_empty]
  exact List.foldl_hom ofMap step_ofMap

lemma typed_ofMap (fields : FieldMap) : (ofMap fields).typed = fields := by
  obtain ⟨booleans, bytes, chars, shorts, integers, floats⟩ := fields
  unfold typed ofMap FieldMap.get?
  congr 1
  · cases booleans <;> rfl
  · cases bytes <;> rfl
  · cases chars <;> rfl
  · cases shorts <;> rfl
  · cases integers <;> rfl
  · cases floats <;> rfl

end Filing

/-- What stands in a map after some steps: what the steps have added, by ascending kinds. The same stands
in a filing, where nothing has been replaced and everything is found by its type. -/
structure HoldsInOrder (steps : List MapStep) : Prop where
  gathered : ∀ kind, IsGathered kind (addedSince kind steps) ((mapAfter steps).get? kind)
  ascending : AreAscending (mapAfter steps).toList
  listed : ∀ values, values ∈ (mapAfter steps).toList ↔
    (mapAfter steps).get? values.kind = some values
  filed : (Filing.after steps).get? = (mapAfter steps).get?
  sameList : (Filing.after steps).toList = (mapAfter steps).toList
  unreplaced : (Filing.after steps).replacements = 0
  typed : (Filing.after steps).typed.get? = (Filing.after steps).get?

lemma holdsInOrder (steps : List MapStep) : HoldsInOrder steps where
  gathered kind := isGathered_mapAfter kind steps
  ascending := areAscending_toList _
  listed values := by
    rw [mem_toList_iff]
    constructor
    · rintro ⟨kind, hentry⟩
      rwa [kind_of_get? hentry]
    · exact fun hentry => ⟨_, hentry⟩
  filed := by rw [Filing.after_eq, Filing.ofMap]
  sameList := by rw [Filing.after_eq, Filing.ofMap, Filing.toList, FieldMap.toList]
  unreplaced := by rw [Filing.after_eq, Filing.ofMap]
  typed := by rw [Filing.after_eq, Filing.typed_ofMap, Filing.ofMap]

/-- In every run an entry is what was added for its kind since the kind was last cleared, in order, and
the entries come by ascending kinds, each under its own. To collect arrays is to merge the later ones
into what the earlier ones make, and arrays come to the same if those of each kind come in the same
order, such as when two neighbours of different kinds are exchanged. -/
theorem entries_join_in_order :
    (∀ steps, HoldsInOrder steps) ∧
    (∀ earlier later, FieldMap.ofList (earlier ++ later) = (FieldMap.ofList earlier).mergeAll later) ∧
    (∀ (fields : FieldMap) (values others : List FieldValues),
      (∀ kind, ofKind kind values = ofKind kind others) →
        fields.mergeAll values = fields.mergeAll others) ∧
    ∀ (fields : FieldMap) (before after : List FieldValues) (first second : FieldValues),
      first.kind ≠ second.kind →
        fields.mergeAll (before ++ first :: second :: after) =
          fields.mergeAll (before ++ second :: first :: after) :=
  ⟨holdsInOrder, fun _ _ => List.foldl_append, fun fields _ _ h => mergeAll_congr h fields,
    fun fields before after _ _ h => mergeAll_congr (ofKind_exchange h before after) fields⟩

/-- A run in which one kind is removed and filled again, another one gets an empty array, and two arrays
that are collected change places. -/
theorem entries_join_in_order_after_removal :
    let front : List FieldValues := [.bytes [1], .chars "a", .bytes [2]]
    let exchanged : List FieldValues := [.chars "a", .bytes [1], .bytes [2]]
    let sorted : List FieldValues := [.bytes [1], .bytes [2], .chars "a"]
    let steps : List MapStep := [.merge (.shorts [9]), .collect front, .merge (.bytes [3]),
      .remove .char, .merge (.chars "b"), .merge (.floats []), .merge (.chars "é")]
    let fields : FieldMap := { bytes := some [1, 2, 3], chars := some "bé", floats := some [] }
    mapAfter steps = fields ∧ HoldsInOrder steps ∧
      addedSince .char steps = [.chars "b", .chars "é"] ∧
      FieldMap.ofList front = FieldMap.ofList exchanged ∧
      FieldMap.ofList exchanged = FieldMap.ofList sorted ∧
      FieldMap.ofList front ≠ FieldMap.ofList front.reverse := by
  intro front exchanged sorted steps fields
  obtain ⟨hholds, -, hsame, hexchange⟩ := entries_join_in_order
  have hexchanged : FieldMap.ofList front = FieldMap.ofList exchanged :=
    hexchange .empty [] [.bytes [2]] (.bytes [1]) (.chars "a") (by decide)
  have hsorted : FieldMap.ofList exchanged = FieldMap.ofList sorted :=
    hsame .empty exchanged sorted fun kind => by cases kind <;> decide
  exact ⟨by decide, hholds steps, by decide, hexchanged, hsorted, by decide⟩

end ReliableDatagrams.Proofs
