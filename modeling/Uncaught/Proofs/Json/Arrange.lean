import Uncaught.Json.Field
import Uncaught.Json.Printer
import Uncaught.Proofs.Data.Except
import Uncaught.Proofs.Data.Sorted
import Uncaught.Proofs.Data.Table

/-
  The order of the fields of objects. Writing a value puts
  them in the order of their names; reading a record finds
  each of them wherever it is, as long as no name comes twice.

  Key definitions include:
    * `Json.Plain`
    * `Json.Arrangement`
    * `Json.arrange`
    * `Json.Same`

  Main declarations:
    * `Json.arrange_id`
    * `Json.Arrangement.field_arrange`
    * `Json.Arrangement.slot_arrange`
    * `Json.arrangement_byName`
    * `Json.Arrangement.same_arrange`
-/

namespace Uncaught

namespace Json

------------------------------------------------------------
-- Plain Values
------------------------------------------------------------

/-
  Values that can be written without loss: no number has a
  fraction, and no object has two fields with one name.
-/
inductive Plain : Json → Prop where
  | null : Plain null
  | bool (b : Bool) : Plain (bool b)
  | int (n : Int) : Plain (int n)
  | str (s : String) : Plain (str s)
  | arr
      {items : List Json}
      (hItems : ∀ v ∈ items, Plain v) :
      Plain (arr items)
  | obj
      {fields : List (String × Json)}
      (hNames : (fields.map Prod.fst).Nodup)
      (hValues : ∀ kv ∈ fields, Plain kv.2) :
      Plain (obj fields)

theorem plain_ofOption
    (name : Option String) :
    Plain (ofOption name) := by
  cases name with
  | none => exact .null
  | some s => exact .str s

/- An array of values that are written the same way. -/
theorem plain_map
    {α : Type}
    {write : α → Json}
    (hWrite : ∀ a, Plain (write a))
    (items : List α) :
    Plain (arr (items.map write)) := by
  apply Plain.arr
  intro v hv
  rcases List.mem_map.mp hv with ⟨a, -, rfl⟩
  exact hWrite a

theorem plain_strings
    (names : List String) :
    Plain (strings names) :=
  plain_map Plain.str names

------------------------------------------------------------
-- Arrangements
------------------------------------------------------------

/- A way of putting the fields of an object in order. -/
def Arrangement
    (order : List (String × Json) → List (String × Json)) :
    Prop :=
  ∀ fields, (order fields).Perm fields

mutual

/- A value with the fields of all objects in another order. -/
def arrange
    (order : List (String × Json) → List (String × Json)) :
    Json → Json
  | null => null
  | bool b => bool b
  | int n => int n
  | real x => real x
  | str s => str s
  | arr items => arr (arrangeItems order items)
  | obj fields => obj (order (arrangeFields order fields))

/- The items of an array, each with its fields in order. -/
def arrangeItems
    (order : List (String × Json) → List (String × Json)) :
    List Json → List Json
  | [] => []
  | v :: items => arrange order v :: arrangeItems order items

/- The fields of an object, each with its own in order. -/
def arrangeFields
    (order : List (String × Json) → List (String × Json)) :
    List (String × Json) → List (String × Json)
  | [] => []
  | (k, v) :: fields =>
      (k, arrange order v) :: arrangeFields order fields

end

variable {order : List (String × Json) → List (String × Json)}
variable {fields : List (String × Json)}

theorem arrangeItems_eq_map
    (items : List Json) :
    arrangeItems order items = items.map (arrange order) := by
  induction items with
  | nil => rfl
  | cons v items ih => rw [arrangeItems, ih, List.map_cons]

theorem arrangeFields_eq_map
    (fields : List (String × Json)) :
    arrangeFields order fields =
      fields.map fun kv => (kv.1, arrange order kv.2) := by
  induction fields with
  | nil => rfl
  | cons kv fields ih =>
      rw [arrangeFields, ih, List.map_cons]

theorem arrange_arr
    (items : List Json) :
    arrange order (arr items) =
      arr (items.map (arrange order)) := by
  rw [arrange, arrangeItems_eq_map]

theorem arrange_obj
    (fields : List (String × Json)) :
    arrange order (obj fields) =
      obj (order (fields.map fun kv =>
        (kv.1, arrange order kv.2))) := by
  rw [arrange, arrangeFields_eq_map]

@[simp] theorem arrange_strings
    (names : List String) :
    arrange order (strings names) = strings names := by
  rw [strings, arrange_arr, List.map_map]
  rfl

@[simp] theorem arrange_ofOption
    (name : Option String) :
    arrange order (ofOption name) = ofOption name := by
  cases name <;> rfl

/- Nothing changes if the fields stay where they are. -/
theorem arrange_id
    {v : Json}
    (hPlain : Plain v) :
    arrange id v = v := by
  induction hPlain with
  | null => rfl
  | bool b => rfl
  | int n => rfl
  | str s => rfl
  | arr hItems ih =>
      rw [arrange_arr, List.map_congr_left ih, List.map_id']
  | @obj fields hNames hValues ih =>
      have hFields :
          ∀ kv ∈ fields, (kv.1, arrange id kv.2) = kv := by
        intro kv hkv
        rw [ih kv hkv]
      rw [arrange_obj, List.map_congr_left hFields,
        List.map_id', id]

theorem arrangement_id :
    Arrangement id :=
  fun fields => List.Perm.refl fields

theorem arrangement_byName :
    Arrangement Printer.byName :=
  fun fields => List.mergeSort_perm fields _

------------------------------------------------------------
-- Finding Fields
------------------------------------------------------------

/- A field is found wherever it stands. -/
theorem Arrangement.lookup_arrange
    (hOrder : Arrangement order)
    (hNames : (fields.map Prod.fst).Nodup)
    (key : String) :
    (order (fields.map fun kv =>
      (kv.1, arrange order kv.2))).lookup key =
      (fields.lookup key).map (arrange order) := by
  rw [Table.lookup_eq_of_perm _ (hOrder _),
    Table.lookup_map_snd]
  apply ((hOrder _).map Prod.fst).nodup_iff.mpr
  rwa [List.map_map]

theorem exists_fields_of_field
    {v w : Json}
    {key : String}
    (hPlain : Plain v)
    (hField : v.field key = .ok w) :
    ∃ fields, v = obj fields ∧
      (fields.map Prod.fst).Nodup ∧
        fields.lookup key = some w := by
  cases hPlain with
  | @obj fields hNames hValues =>
      rw [field] at hField
      cases hFound : fields.lookup key with
      | none =>
          rw [hFound] at hField
          cases hField
      | some value =>
          rw [hFound] at hField
          cases hField
          exact ⟨fields, rfl, hNames, hFound⟩
  | _ => cases hField

/- The value of a field, its own fields in order. -/
theorem Arrangement.field_arrange
    (hOrder : Arrangement order)
    {v w : Json}
    (hPlain : Plain v)
    {key : String}
    (hField : v.field key = .ok w) :
    (arrange order v).field key = .ok (arrange order w) := by
  rcases exists_fields_of_field hPlain hField with
    ⟨fields, rfl, hNames, hFound⟩
  rw [arrange_obj, field, hOrder.lookup_arrange hNames, hFound]
  rfl

theorem Arrangement.field?_arrange
    (hOrder : Arrangement order)
    {v w : Json}
    (hPlain : Plain v)
    {key : String}
    (hField : v.field key = .ok w) :
    (arrange order v).field? key =
      .ok (some (arrange order w)) := by
  rcases exists_fields_of_field hPlain hField with
    ⟨fields, rfl, hNames, hFound⟩
  rw [arrange_obj, field?, hOrder.lookup_arrange hNames, hFound]
  rfl

/- What is read of a field, its own fields in order. -/
theorem Arrangement.slot_arrange
    (hOrder : Arrangement order)
    {v w : Json}
    (hPlain : Plain v)
    {key : String}
    (hField : v.field key = .ok w)
    {α : Type}
    {read : Json → Read α}
    {a : α}
    (hRead : read (arrange order w) = .ok a) :
    (arrange order v).slot key read = .ok (some a) := by
  rw [slot, hOrder.field?_arrange hPlain hField]
  refine bind_eq_ok_iff.mpr ⟨_, rfl, ?_⟩
  simp only [hRead]
  rfl

------------------------------------------------------------
-- Same Values
------------------------------------------------------------

/-
  Values that differ in the order of fields at most: arrays
  with the same items at the same places, and objects with the
  same names and the same value under each.
-/
inductive Same : Json → Json → Prop where
  | null : Same null null
  | bool (b : Bool) : Same (bool b) (bool b)
  | int (n : Int) : Same (int n) (int n)
  | real (x : Numeral) : Same (real x) (real x)
  | str (s : String) : Same (str s) (str s)
  | arr
      {left right : List Json}
      (hLength : left.length = right.length)
      (hItems :
        ∀ (i : Nat) (v w : Json),
          left[i]? = some v → right[i]? = some w →
            Same v w) :
      Same (arr left) (arr right)
  | obj
      {left right : List (String × Json)}
      (hNames :
        (left.map Prod.fst).Perm (right.map Prod.fst))
      (hValues :
        ∀ key v w, left.lookup key = some v →
          right.lookup key = some w → Same v w) :
      Same (obj left) (obj right)

/- Putting the fields in order leaves the value the same. -/
theorem Arrangement.same_arrange
    (hOrder : Arrangement order)
    {v : Json}
    (hPlain : Plain v) :
    Same (arrange order v) v := by
  induction hPlain with
  | null => exact .null
  | bool b => exact .bool b
  | int n => exact .int n
  | str s => exact .str s
  | @arr items hItems ih =>
      rw [arrange_arr]
      refine .arr (List.length_map _) ?_
      intro i v w hLeft hRight
      rw [List.getElem?_map, hRight] at hLeft
      cases hLeft
      exact ih w (List.mem_of_getElem? hRight)
  | @obj fields hNames hValues ih =>
      rw [arrange_obj]
      refine .obj ?_ ?_
      · have hPerm := (hOrder (fields.map fun kv =>
          (kv.1, arrange order kv.2))).map Prod.fst
        rwa [List.map_map] at hPerm
      · intro key v w hLeft hRight
        rw [hOrder.lookup_arrange hNames, hRight] at hLeft
        cases hLeft
        exact ih (key, w)
          ((Table.lookup_eq_some_iff_mem hNames key w).mp hRight)

------------------------------------------------------------
-- Reading Lists
------------------------------------------------------------

/- Items that are read back one by one are read back. -/
theorem list_arrange_map
    {α β : Type}
    {write : α → Json}
    {read : Json → Read β}
    {restored : α → β}
    {items : List α}
    (hRead :
      ∀ a ∈ items,
        read (arrange order (write a)) = .ok (restored a)) :
    list read (arrange order (arr (items.map write))) =
      .ok (items.map restored) := by
  rw [list, arrange_arr, List.map_map]
  refine bind_eq_ok_iff.mpr ⟨_, rfl, ?_⟩
  rw [List.mapM_map]
  exact mapM_eq_ok hRead

@[simp] theorem names_strings
    (texts : List String) :
    names (strings texts) = .ok texts := by
  refine bind_eq_ok_iff.mpr ⟨texts.map str, rfl, ?_⟩
  rw [List.mapM_map, mapM_eq_ok (g := id), List.map_id]
  intro text _
  rfl

@[simp] theorem name?_ofOption
    (text : Option String) :
    name? (ofOption text) = .ok text := by
  cases text <;> rfl

/- What is read of a field was read somewhere. -/
theorem exists_read_of_slot
    {α : Type}
    {read : Json → Read α}
    {v : Json}
    {key : String}
    {a : α}
    (hSlot : v.slot key read = .ok (some a)) :
    ∃ w, read w = .ok a := by
  rcases bind_eq_ok_iff.mp hSlot with ⟨found, -, hRead⟩
  cases found with
  | none => cases hRead
  | some w =>
      refine ⟨w, ?_⟩
      cases hValue : read w with
      | error e =>
          simp only [hValue] at hRead
          cases hRead
      | ok b =>
          simp only [hValue] at hRead
          cases hRead
          rfl

/- Each item of a list that is read was read. -/
theorem exists_read_of_mem_list
    {α : Type}
    {read : Json → Read α}
    {v : Json}
    {items : List α}
    (hList : list read v = .ok items)
    {a : α}
    (hMem : a ∈ items) :
    ∃ w, read w = .ok a := by
  rcases bind_eq_ok_iff.mp hList with ⟨values, -, hItems⟩
  rcases exists_of_mem_right (forall₂_of_mapM_eq_ok hItems)
      hMem with
    ⟨w, -, hRead⟩
  exact ⟨w, hRead⟩

end Json

end Uncaught
