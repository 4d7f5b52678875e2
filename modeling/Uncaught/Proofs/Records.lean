import Mathlib.Data.Option.Basic
import Uncaught.ClassRecord
import Uncaught.Facts
import Uncaught.Proofs.Json.Arrange
import Uncaught.Proofs.Signature

/-
  Records and their written forms. Lists in records stand for
  sets, so that records are the same up to the order of their
  lists. What is written of a record is read back as a record
  that is the same, and is written as before.

  Key definitions include:
    * `SameMembers`
    * `MethodFacts.Same`
    * `MethodFacts.Sets`
    * `MethodFacts.restored`
    * `ClassRecord.Same`
    * `ClassRecord.Sets`
    * `ClassRecord.restored`
    * `MethodFacts.Shuffled`
    * `ClassRecord.Shuffled`

  Main declarations:
    * `Signature.ofJson_arrange`
    * `MethodFacts.ofJson_arrange`
    * `MethodFacts.same_restored`
    * `MethodFacts.toJson_restored`
    * `MethodFacts.Shuffled.toJson_eq`
    * `ClassRecord.ofJson_arrange`
    * `ClassRecord.same_restored`
    * `ClassRecord.toJson_restored`
    * `ClassRecord.Shuffled.toJson_eq`
-/

namespace Uncaught

------------------------------------------------------------
-- Sets
------------------------------------------------------------

/- Two lists that stand for the same set. -/
def SameMembers
    {α : Type}
    (left right : List α) : Prop :=
  ∀ a, a ∈ left ↔ a ∈ right

namespace SameMembers

variable {α : Type} {left right : List α}

theorem symm
    (hSame : SameMembers left right) :
    SameMembers right left :=
  fun a => (hSame a).symm

theorem isEmpty_eq
    (hSame : SameMembers left right) :
    left.isEmpty = right.isEmpty := by
  rw [Bool.eq_iff_iff, List.isEmpty_iff, List.isEmpty_iff,
    List.eq_nil_iff_forall_not_mem,
    List.eq_nil_iff_forall_not_mem]
  simp only [hSame _]

theorem any_eq
    (hSame : SameMembers left right)
    (test : α → Bool) :
    left.any test = right.any test := by
  rw [Bool.eq_iff_iff, List.any_eq_true, List.any_eq_true]
  simp only [hSame _]

end SameMembers

/- What two related options hold is related. -/
theorem exists_of_rel_some
    {α β : Type}
    {R : α → β → Prop}
    {x : Option α}
    {y : Option β}
    {a : α}
    (hRel : Option.Rel R x y)
    (hSome : x = some a) :
    ∃ b, y = some b ∧ R a b := by
  cases hRel with
  | some hR =>
      cases hSome
      exact ⟨_, rfl, hR⟩
  | none => cases hSome

/- Options are related whose contents match. -/
theorem rel_of_exists
    {α β : Type}
    {R : α → β → Prop}
    {x : Option α}
    {y : Option β}
    (hLeft : ∀ a, x = some a → ∃ b, y = some b ∧ R a b)
    (hRight : ∀ b, y = some b → ∃ a, x = some a) :
    Option.Rel R x y := by
  cases x with
  | none =>
      cases y with
      | none => exact .none
      | some b =>
          rcases hRight b rfl with ⟨a, hSome⟩
          cases hSome
  | some a =>
      rcases hLeft a rfl with ⟨b, rfl, hR⟩
      exact .some hR

theorem rel_symm
    {α : Type}
    {R : α → α → Prop}
    (hSymm : ∀ a b, R a b → R b a)
    {x y : Option α}
    (hRel : Option.Rel R x y) :
    Option.Rel R y x := by
  cases hRel with
  | some hR => exact .some (hSymm _ _ hR)
  | none => exact .none

theorem rel_swap
    {α β : Type}
    {R : α → β → Prop}
    {x : Option α}
    {y : Option β}
    (hRel : Option.Rel R x y) :
    Option.Rel (fun b a => R a b) y x := by
  cases hRel with
  | some hR => exact .some hR
  | none => exact .none

theorem rel_imp
    {α β : Type}
    {R S : α → β → Prop}
    (hImp : ∀ a b, R a b → S a b)
    {x : Option α}
    {y : Option β}
    (hRel : Option.Rel R x y) :
    Option.Rel S x y := by
  cases hRel with
  | some hR => exact .some (hImp _ _ hR)
  | none => exact .none

theorem rel_map
    {α : Type}
    {R : α → α → Prop}
    {f : α → α}
    (hRel : ∀ a, R a (f a))
    (x : Option α) :
    Option.Rel R x (x.map f) := by
  cases x with
  | none => exact .none
  | some a => exact .some (hRel a)

theorem eq_none_iff_of_rel
    {α β : Type}
    {R : α → β → Prop}
    {x : Option α}
    {y : Option β}
    (hRel : Option.Rel R x y) :
    x = none ↔ y = none := by
  cases hRel with
  | some hR => simp
  | none => simp

theorem sameMembers_getD
    {α : Type}
    {x y : Option (List α)}
    (hRel : Option.Rel SameMembers x y) :
    SameMembers (x.getD []) (y.getD []) := by
  cases hRel with
  | some hSame => exact hSame
  | none => exact fun _ => Iff.rfl

------------------------------------------------------------
-- Same Records
------------------------------------------------------------

/- Facts that say the same of the same method. -/
structure MethodFacts.Same
    (f g : MethodFacts) : Prop where
  signature : f.signature = g.signature
  calls : SameMembers f.calls g.calls
  thrown : SameMembers f.thrown g.thrown
  handlers :
    ∀ callee, Option.Rel SameMembers (f.handlers.get? callee)
      (g.handlers.get? callee)

theorem MethodFacts.Same.refl
    (f : MethodFacts) :
    f.Same f where
  signature := rfl
  calls := fun _ => Iff.rfl
  thrown := fun _ => Iff.rfl
  handlers := by
    intro callee
    cases f.handlers.get? callee with
    | none => exact .none
    | some caught => exact .some fun _ => Iff.rfl

theorem MethodFacts.Same.symm
    (f g : MethodFacts)
    (hSame : f.Same g) :
    g.Same f where
  signature := hSame.signature.symm
  calls := hSame.calls.symm
  thrown := hSame.thrown.symm
  handlers := fun callee =>
    rel_symm (fun _ _ => SameMembers.symm)
      (hSame.handlers callee)

/- Records that say the same of the same class. -/
structure ClassRecord.Same
    (c d : ClassRecord) : Prop where
  name : c.name = d.name
  superClass : c.superClass = d.superClass
  interfaces : SameMembers c.interfaces d.interfaces
  isInterface : c.isInterface = d.isInterface
  methods : SameMembers c.methods d.methods

theorem ClassRecord.Same.refl
    (c : ClassRecord) :
    c.Same c where
  name := rfl
  superClass := rfl
  interfaces := fun _ => Iff.rfl
  isInterface := rfl
  methods := fun _ => Iff.rfl

theorem ClassRecord.Same.symm
    (c d : ClassRecord)
    (hSame : c.Same d) :
    d.Same c where
  name := hSame.name.symm
  superClass := hSame.superClass.symm
  interfaces := hSame.interfaces.symm
  isInterface := hSame.isInterface.symm
  methods := hSame.methods.symm

------------------------------------------------------------
-- Sets In Any Order
------------------------------------------------------------

/- The same facts, with the sets in them listed in any order. -/
structure MethodFacts.Shuffled
    (f g : MethodFacts) : Prop where
  signature : f.signature = g.signature
  calls : f.calls.Perm g.calls
  thrown : f.thrown.Perm g.thrown
  handlers : Table.Rel List.Perm f.handlers g.handlers

theorem MethodFacts.Shuffled.refl
    (f : MethodFacts) :
    f.Shuffled f where
  signature := rfl
  calls := .refl _
  thrown := .refl _
  handlers := .refl (fun _ => .refl _) _

theorem MethodFacts.Shuffled.same
    {f g : MethodFacts}
    (hShuffled : f.Shuffled g) :
    f.Same g where
  signature := hShuffled.signature
  calls := fun _ => hShuffled.calls.mem_iff
  thrown := fun _ => hShuffled.thrown.mem_iff
  handlers := fun callee =>
    rel_imp (fun _ _ hPerm _ => hPerm.mem_iff)
      (hShuffled.handlers.rel_get? callee)

/- The same record, with the sets in it listed in any order. -/
structure ClassRecord.Shuffled
    (c d : ClassRecord) : Prop where
  name : c.name = d.name
  superClass : c.superClass = d.superClass
  interfaces : c.interfaces.Perm d.interfaces
  isInterface : c.isInterface = d.isInterface
  methods : c.methods.Perm d.methods

theorem ClassRecord.Shuffled.refl
    (c : ClassRecord) :
    c.Shuffled c :=
  ⟨rfl, rfl, .refl _, rfl, .refl _⟩

------------------------------------------------------------
-- Sets As They Are Read
------------------------------------------------------------

/- Names that were written in order and are read as a set. -/
def restoredNames
    (names : List String) : List String :=
  (sortNames names).eraseDups

/- Signatures that were written in order and are read as a set. -/
def restoredSignatures
    (sigs : List Signature) : List Signature :=
  (Signature.sort sigs).eraseDups

theorem sameMembers_restoredNames
    (names : List String) :
    SameMembers names (restoredNames names) := by
  intro n
  rw [restoredNames, List.mem_eraseDups, mem_sortNames]

theorem sameMembers_restoredSignatures
    (sigs : List Signature) :
    SameMembers sigs (restoredSignatures sigs) := by
  intro s
  rw [restoredSignatures, List.mem_eraseDups,
    Signature.mem_sort]

/- A set is written again as it was. -/
theorem sortNames_restoredNames
    {names : List String}
    (hNodup : names.Nodup) :
    sortNames (restoredNames names) = sortNames names := by
  have hSorted : (sortNames names).Nodup :=
    (List.mergeSort_perm names _).nodup_iff.mpr hNodup
  rw [restoredNames, eraseDups_eq_self hSorted]
  exact sortNames_eq_of_perm (List.mergeSort_perm names _)

theorem sort_restoredSignatures
    {sigs : List Signature}
    (hNodup : sigs.Nodup) :
    Signature.sort (restoredSignatures sigs) =
      Signature.sort sigs := by
  have hSorted : (Signature.sort sigs).Nodup :=
    (Signature.sort_perm sigs).nodup_iff.mpr hNodup
  rw [restoredSignatures, eraseDups_eq_self hSorted]
  exact Signature.sort_of_pairwise (Signature.pairwise_sort sigs)

------------------------------------------------------------
-- Signatures
------------------------------------------------------------

variable {order : List (String × Json) → List (String × Json)}

theorem Signature.plain_toJson
    (s : Signature) :
    s.toJson.Plain := by
  apply Json.Plain.obj
  · change ["class", "name", "params", "package", "throws"].Nodup
    decide
  · simp [Json.Plain.str, Json.plain_strings,
      Json.plain_ofOption]

/- A signature is read back. -/
theorem Signature.ofJson_arrange
    (hOrder : Json.Arrangement order)
    (s : Signature) :
    ofJson (s.toJson.arrange order) = .ok s := by
  have hOwner :
      (s.toJson.arrange order).field "class" =
        .ok ((Json.str s.owner).arrange order) :=
    hOrder.field_arrange s.plain_toJson rfl
  have hName :
      (s.toJson.arrange order).field "name" =
        .ok ((Json.str s.name).arrange order) :=
    hOrder.field_arrange s.plain_toJson rfl
  have hParams :
      (s.toJson.arrange order).slot "params" Json.names =
        .ok (some s.params) :=
    hOrder.slot_arrange s.plain_toJson rfl (by simp)
  have hPackage :
      (s.toJson.arrange order).slot "package" Json.name? =
        .ok (some s.package) :=
    hOrder.slot_arrange s.plain_toJson rfl (by simp)
  have hThrows :
      (s.toJson.arrange order).slot "throws" Json.names =
        .ok (some s.throws) :=
    hOrder.slot_arrange s.plain_toJson rfl (by simp)
  simp [ofJson, hOwner, hName, hParams, hPackage, hThrows,
    Json.arrange, Json.name, bind, Except.bind, pure,
    Except.pure]

------------------------------------------------------------
-- Facts
------------------------------------------------------------

namespace MethodFacts

/- Facts whose lists have no repetitions. -/
structure Sets
    (f : MethodFacts) : Prop where
  calls : f.calls.Nodup
  thrown : f.thrown.Nodup
  handlers :
    ∀ handler ∈ f.handlers.entries, handler.2.Nodup

/- The handlers as they are written: sorted by the callee. -/
def restoredHandlers
    (f : MethodFacts) : List (Signature × List String) :=
  (Signature.sortOn Prod.fst f.handlers.entries).map
    fun handler => (handler.1, restoredNames handler.2)

/- Facts as they are read after they were written. -/
def restored
    (f : MethodFacts) : MethodFacts where
  signature := f.signature
  calls := restoredSignatures f.calls
  thrown := restoredNames f.thrown
  handlers := .ofList f.restoredHandlers

theorem nodup_restoredHandlers
    (f : MethodFacts) :
    (f.restoredHandlers.map Prod.fst).Nodup := by
  rw [restoredHandlers, List.map_map]
  exact ((Signature.sortOn_perm Prod.fst _).map
    Prod.fst).nodup_iff.mpr f.handlers.nodup

/- Each callee has its handlers. -/
theorem get?_restored_handlers
    (f : MethodFacts)
    (callee : Signature) :
    f.restored.handlers.get? callee =
      (f.handlers.get? callee).map restoredNames := by
  have hNodup := f.nodup_restoredHandlers
  have hPerm := Signature.sortOn_perm Prod.fst f.handlers.entries
  rw [restored, Table.get?, Table.entries_ofList hNodup,
    restoredHandlers, Table.lookup_map_snd,
    Table.lookup_eq_of_perm _ hPerm]
  · rfl
  · rwa [restoredHandlers, List.map_map] at hNodup

/- Facts that are read back say what they said. -/
theorem same_restored
    (f : MethodFacts) :
    f.Same f.restored where
  signature := rfl
  calls := sameMembers_restoredSignatures f.calls
  thrown := sameMembers_restoredNames f.thrown
  handlers := by
    intro callee
    rw [get?_restored_handlers]
    cases f.handlers.get? callee with
    | none => exact .none
    | some caught =>
        exact .some (sameMembers_restoredNames caught)

theorem Same.isBare_eq
    {f g : MethodFacts}
    (hSame : f.Same g) :
    f.isBare = g.isBare := by
  have hHandlers : f.handlers.isEmpty = g.handlers.isEmpty := by
    rw [Bool.eq_iff_iff, Table.isEmpty_iff, Table.isEmpty_iff]
    exact forall_congr' fun callee =>
      eq_none_iff_of_rel (hSame.handlers callee)
  rw [isBare, isBare, hSame.calls.isEmpty_eq,
    hSame.thrown.isEmpty_eq, hHandlers]

/- Bare facts say no more than their signature. -/
theorem same_of_isBare
    {f : MethodFacts}
    (hBare : f.isBare = true) :
    f.Same { signature := f.signature } := by
  simp only [isBare, Bool.and_eq_true, List.isEmpty_iff,
    Table.isEmpty_iff] at hBare
  rcases hBare with ⟨⟨hCalls, hThrown⟩, hHandlers⟩
  refine ⟨rfl, ?_, ?_, ?_⟩
  · rw [hCalls]
    exact fun _ => Iff.rfl
  · rw [hThrown]
    exact fun _ => Iff.rfl
  · intro callee
    rw [hHandlers callee]
    exact .none

/- A handler as a JSON value. -/
def handlerToJson
    (handler : Signature × List String) : Json :=
  .obj [
    ("callee", handler.1.toJson),
    ("catches", .strings (sortNames handler.2))]

theorem toJson_eq
    (f : MethodFacts) :
    f.toJson =
      .obj [
        ("signature", f.signature.toJson),
        ("callings", .arr ((Signature.sort f.calls).map
          Signature.toJson)),
        ("throws_in_body", .strings (sortNames f.thrown)),
        ("handlers", .arr ((Signature.sortOn Prod.fst
          f.handlers.entries).map handlerToJson))] :=
  rfl

theorem plain_handlerToJson
    (handler : Signature × List String) :
    (handlerToJson handler).Plain := by
  apply Json.Plain.obj
  · change ["callee", "catches"].Nodup
    decide
  · simp [Signature.plain_toJson, Json.plain_strings]

theorem plain_toJson
    (f : MethodFacts) :
    f.toJson.Plain := by
  apply Json.Plain.obj
  · change
      ["signature", "callings", "throws_in_body",
        "handlers"].Nodup
    decide
  · simp only [List.mem_cons, List.not_mem_nil, or_false,
      forall_eq_or_imp, forall_eq]
    exact ⟨f.signature.plain_toJson,
      Json.plain_map Signature.plain_toJson _,
      Json.plain_strings _,
      Json.plain_map plain_handlerToJson _⟩

/- Handlers are read back. -/
theorem handlerOfJson_arrange
    (hOrder : Json.Arrangement order)
    (handler : Signature × List String) :
    handlerOfJson ((handlerToJson handler).arrange order) =
      .ok (handler.1, restoredNames handler.2) := by
  have hPlain := plain_handlerToJson handler
  have hCallee :
      ((handlerToJson handler).arrange order).field "callee" =
        .ok (handler.1.toJson.arrange order) :=
    hOrder.field_arrange hPlain rfl
  have hCatches :
      ((handlerToJson handler).arrange order).field "catches" =
        .ok ((Json.strings (sortNames handler.2)).arrange order) :=
    hOrder.field_arrange hPlain rfl
  simp [handlerOfJson, hCallee, hCatches,
    Signature.ofJson_arrange hOrder, restoredNames, bind,
    Except.bind, pure, Except.pure]

/- What is written of facts is read back. -/
theorem ofJson_arrange
    (hOrder : Json.Arrangement order)
    (f : MethodFacts) :
    ofJson (f.toJson.arrange order) = .ok f.restored := by
  have hSignature :
      (f.toJson.arrange order).field "signature" =
        .ok (f.signature.toJson.arrange order) :=
    hOrder.field_arrange f.plain_toJson rfl
  have hCalls :
      (f.toJson.arrange order).slot "callings"
        (Json.list Signature.ofJson) =
        .ok (some ((Signature.sort f.calls).map id)) :=
    hOrder.slot_arrange f.plain_toJson rfl
      (Json.list_arrange_map fun s _ =>
        Signature.ofJson_arrange hOrder s)
  have hThrown :
      (f.toJson.arrange order).slot "throws_in_body"
        Json.names =
        .ok (some (sortNames f.thrown)) :=
    hOrder.slot_arrange f.plain_toJson rfl (by simp)
  have hHandlers :
      (f.toJson.arrange order).slot "handlers"
        (Json.list handlerOfJson) =
        .ok (some f.restoredHandlers) :=
    hOrder.slot_arrange f.plain_toJson rfl
      (Json.list_arrange_map fun handler _ =>
        handlerOfJson_arrange hOrder handler)
  simp [ofJson, hSignature, hCalls, hThrown, hHandlers,
    Signature.ofJson_arrange hOrder, restored, restoredNames,
    restoredSignatures, bind, Except.bind, pure, Except.pure]

/- Facts that are read back are written as before. -/
theorem toJson_restored
    {f : MethodFacts}
    (hSets : f.Sets) :
    f.restored.toJson = f.toJson := by
  have hEntries :
      f.restored.handlers.entries = f.restoredHandlers :=
    Table.entries_ofList f.nodup_restoredHandlers
  have hSorted :
      Signature.sortOn Prod.fst f.restoredHandlers =
        f.restoredHandlers := by
    apply Signature.sortOn_of_pairwise
    rw [restoredHandlers, List.pairwise_map]
    exact Signature.pairwise_sortOn Prod.fst _
  have hHandlers :
      f.restoredHandlers.map handlerToJson =
        (Signature.sortOn Prod.fst f.handlers.entries).map
          handlerToJson := by
    rw [restoredHandlers, List.map_map]
    apply List.map_congr_left
    intro handler hMem
    have hNodup := hSets.handlers handler
      ((Signature.sortOn_perm Prod.fst _).mem_iff.mp hMem)
    simp only [Function.comp_apply, handlerToJson,
      sortNames_restoredNames hNodup]
  have hCalls :
      Signature.sort f.restored.calls =
        Signature.sort f.calls :=
    sort_restoredSignatures hSets.calls
  have hThrown :
      sortNames f.restored.thrown = sortNames f.thrown :=
    sortNames_restoredNames hSets.thrown
  rw [toJson_eq, toJson_eq, hEntries, hSorted, hHandlers,
    hCalls, hThrown]
  rfl

/-
  Facts are written the same in whatever order their sets are
  listed, where no called methods tie.
-/
theorem Shuffled.toJson_eq
    {f g : MethodFacts}
    (hShuffled : f.Shuffled g)
    (hUntied : Signature.Untied f.calls) :
    f.toJson = g.toJson := by
  have hHandlers :
      (Signature.sortOn Prod.fst f.handlers.entries).map
          handlerToJson =
        (Signature.sortOn Prod.fst g.handlers.entries).map
          handlerToJson := by
    apply map_eq_map_of_forall₂
    apply (forall₂_mergeSort _ hShuffled.handlers).imp
    · rintro ⟨callee, caught⟩ ⟨callee', caught'⟩ ⟨rfl, hPerm⟩
      rw [handlerToJson, handlerToJson,
        sortNames_eq_of_perm hPerm]
    · rintro a b c d ⟨hFirst, -⟩ ⟨hSecond, -⟩
      rw [hFirst, hSecond]
  rw [MethodFacts.toJson_eq, MethodFacts.toJson_eq, hHandlers,
    hShuffled.signature,
    Signature.sort_eq_of_perm hUntied hShuffled.calls,
    sortNames_eq_of_perm hShuffled.thrown]

/- Facts that are read have no repetitions. -/
theorem sets_of_ofJson
    {v : Json}
    {f : MethodFacts}
    (hRead : ofJson v = .ok f) :
    f.Sets := by
  unfold ofJson at hRead
  simp only [bind_eq_ok_iff] at hRead
  rcases hRead with
    ⟨_, -, _, -, calls, -, thrown, -, handlers, hHandlers,
      hFacts⟩
  cases hFacts
  refine ⟨nodup_eraseDups _, nodup_eraseDups _, ?_⟩
  rintro ⟨callee, caught⟩ hMem
  have hListed :=
    Table.mem_of_get?_ofList
      ((Table.get?_eq_some_iff _ _ _).mpr hMem)
  cases handlers with
  | none => cases hListed
  | some handlers =>
      rcases Json.exists_read_of_slot hHandlers with ⟨w, hList⟩
      rcases Json.exists_read_of_mem_list hList hListed with
        ⟨handler, hHandler⟩
      unfold handlerOfJson at hHandler
      simp only [bind_eq_ok_iff] at hHandler
      rcases hHandler with ⟨_, -, _, -, _, -, _, -, hCaught⟩
      cases hCaught
      exact nodup_eraseDups _

end MethodFacts

------------------------------------------------------------
-- Classes
------------------------------------------------------------

namespace ClassRecord

/- Records whose lists have no repetitions. -/
structure Sets
    (c : ClassRecord) : Prop where
  interfaces : c.interfaces.Nodup
  methods : c.methods.Nodup

/- A record as it is read after it was written. -/
def restored
    (c : ClassRecord) : ClassRecord :=
  { c with
    interfaces := restoredNames c.interfaces
    methods := restoredSignatures c.methods }

/- A record that is read back says what it said. -/
theorem same_restored
    (c : ClassRecord) :
    c.Same c.restored where
  name := rfl
  superClass := rfl
  interfaces := sameMembers_restoredNames c.interfaces
  isInterface := rfl
  methods := sameMembers_restoredSignatures c.methods

theorem plain_toJson
    (c : ClassRecord) :
    c.toJson.Plain := by
  apply Json.Plain.obj
  · change
      ["fqn", "super_class", "interfaces", "is_interface",
        "methods"].Nodup
    decide
  · simp only [List.mem_cons, List.not_mem_nil, or_false,
      forall_eq_or_imp, forall_eq]
    exact ⟨.str _, Json.plain_ofOption _, Json.plain_strings _,
      .bool _, Json.plain_map Signature.plain_toJson _⟩

/- What is written of a class is read back. -/
theorem ofJson_arrange
    (hOrder : Json.Arrangement order)
    (c : ClassRecord) :
    ofJson (c.toJson.arrange order) = .ok c.restored := by
  have hName :
      (c.toJson.arrange order).field "fqn" =
        .ok ((Json.str c.name).arrange order) :=
    hOrder.field_arrange c.plain_toJson rfl
  have hSuperClass :
      (c.toJson.arrange order).slot "super_class" Json.name? =
        .ok (some c.superClass) :=
    hOrder.slot_arrange c.plain_toJson rfl (by simp)
  have hInterfaces :
      (c.toJson.arrange order).slot "interfaces" Json.names =
        .ok (some (sortNames c.interfaces)) :=
    hOrder.slot_arrange c.plain_toJson rfl (by simp)
  have hIsInterface :
      (c.toJson.arrange order).slot "is_interface" Json.truth =
        .ok (some c.isInterface) :=
    hOrder.slot_arrange c.plain_toJson rfl rfl
  have hMethods :
      (c.toJson.arrange order).slot "methods"
        (Json.list Signature.ofJson) =
        .ok (some ((Signature.sort c.methods).map id)) :=
    hOrder.slot_arrange c.plain_toJson rfl
      (Json.list_arrange_map fun s _ =>
        Signature.ofJson_arrange hOrder s)
  simp [ofJson, hName, hSuperClass, hInterfaces, hIsInterface,
    hMethods, Json.arrange, Json.name, restored, restoredNames,
    restoredSignatures, bind, Except.bind, pure, Except.pure]

/- A record that is read back is written as before. -/
theorem toJson_restored
    {c : ClassRecord}
    (hSets : c.Sets) :
    c.restored.toJson = c.toJson := by
  unfold toJson restored
  rw [sortNames_restoredNames hSets.interfaces,
    sort_restoredSignatures hSets.methods]

/-
  A record is written the same in whatever order its sets are
  listed, where no methods tie.
-/
theorem Shuffled.toJson_eq
    {c d : ClassRecord}
    (hShuffled : c.Shuffled d)
    (hUntied : Signature.Untied c.methods) :
    c.toJson = d.toJson := by
  unfold toJson
  rw [hShuffled.name, hShuffled.superClass,
    hShuffled.isInterface,
    sortNames_eq_of_perm hShuffled.interfaces,
    Signature.sort_eq_of_perm hUntied hShuffled.methods]

/- A record that is read has no repetitions. -/
theorem sets_of_ofJson
    {v : Json}
    {c : ClassRecord}
    (hRead : ofJson v = .ok c) :
    c.Sets := by
  unfold ofJson at hRead
  simp only [bind_eq_ok_iff] at hRead
  rcases hRead with
    ⟨_, -, _, -, _, -, _, -, _, -, _, -, hRecord⟩
  cases hRecord
  exact ⟨nodup_eraseDups _, nodup_eraseDups _⟩

end ClassRecord

end Uncaught
