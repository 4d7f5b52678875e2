import Uncaught.Proofs.Database.Sameness

/-
  The order in which a database is filled does not matter: if
  the same things are added in another order, and the sets in
  them are listed in another order, then either both databases
  can be built or none, and they answer every question the same.

  Key definitions include:
    * `ClassBinding.Reordered`
    * `Addition.Reordered`
    * `Addition.place`
    * `Database.Reordered`
    * `Database.SameFilling`

  Main declarations:
    * `ClassBinding.Reordered.rel_read`
    * `Database.SameFilling.build_failure_iff`
    * `Database.SameFilling.sameAnalysis`
    * `Database.Reordered.sameFilling`
    * `Database.reordered_sameAnalysis`
-/

namespace Uncaught

------------------------------------------------------------
-- Listed Items
------------------------------------------------------------

namespace Json

/- Values that list the same items, be it in another order. -/
def Relisted
    (v w : Json) : Prop :=
  v = w ∨ ∃ items others,
    v = .arr items ∧ w = .arr others ∧ items.Perm others

variable {α : Type} {v w : Json} {read : Json → Read α}

theorem Relisted.symm
    (hListed : Relisted v w) :
    Relisted w v := by
  rcases hListed with rfl | ⟨items, others, hLeft, hRight, hPerm⟩
  · exact .inl rfl
  · exact .inr ⟨others, items, hRight, hLeft, hPerm.symm⟩

/- The same is read of the same items. -/
theorem Relisted.exists_list
    (hListed : Relisted v w)
    {results : List α}
    (hRead : list read v = .ok results) :
    ∃ results', list read w = .ok results' ∧
      SameMembers results results' := by
  rcases hListed with rfl | ⟨items, others, rfl, rfl, hPerm⟩
  · exact ⟨results, hRead, fun _ => Iff.rfl⟩
  · rcases exists_mapM_of_perm hPerm hRead with
      ⟨results', hOthers, hOrder⟩
    exact ⟨results', hOthers, fun _ => hOrder.mem_iff⟩

variable {fields others : List (String × Json)} {key : String}

theorem slot_obj
    {β : Type}
    (fields : List (String × Json))
    (key : String)
    (read : Json → Read β) :
    (obj fields).slot key read =
      (fields.lookup key).elim (.ok none)
        fun value => some <$> read value := by
  have hField : (obj fields).field? key =
      .ok (fields.lookup key) := rfl
  rw [slot, hField]
  cases fields.lookup key <;> rfl

/- The same is read of a field that lists the same items. -/
theorem exists_slot_of_relisted
    (hListed :
      Option.Rel Relisted (fields.lookup key)
        (others.lookup key))
    {found : Option (List α)}
    (hSlot : (obj fields).slot key (list read) = .ok found) :
    ∃ found', (obj others).slot key (list read) = .ok found' ∧
      SameMembers (found.getD []) (found'.getD []) := by
  rw [slot_obj] at hSlot ⊢
  generalize fields.lookup key = left at hListed hSlot
  generalize others.lookup key = right at hListed
  cases hListed with
  | none =>
      cases hSlot
      exact ⟨none, rfl, fun _ => Iff.rfl⟩
  | @some v w hListed =>
      cases hRead : list read v with
      | error e =>
          rw [Option.elim_some, hRead] at hSlot
          cases hSlot
      | ok results =>
          rw [Option.elim_some, hRead] at hSlot
          cases hSlot
          rcases hListed.exists_list hRead with
            ⟨results', hOther, hSame⟩
          refine ⟨some results', ?_, hSame⟩
          rw [Option.elim_some, hOther]
          rfl

end Json

------------------------------------------------------------
-- Reordered Classes
------------------------------------------------------------

/-
  The fields of two objects that are read as records of one
  class, with interfaces and methods listed in any order.
-/
structure ClassRecord.Relisted
    (fields others : List (String × Json)) : Prop where
  name : fields.lookup "fqn" = others.lookup "fqn"
  superClass :
    fields.lookup "super_class" = others.lookup "super_class"
  isInterface :
    fields.lookup "is_interface" = others.lookup "is_interface"
  interfaces :
    Option.Rel Json.Relisted (fields.lookup "interfaces")
      (others.lookup "interfaces")
  methods :
    Option.Rel Json.Relisted (fields.lookup "methods")
      (others.lookup "methods")

theorem ClassRecord.Relisted.symm
    {fields others : List (String × Json)}
    (hListed : Relisted fields others) :
    Relisted others fields where
  name := hListed.name.symm
  superClass := hListed.superClass.symm
  isInterface := hListed.isInterface.symm
  interfaces :=
    rel_symm (fun _ _ => Json.Relisted.symm) hListed.interfaces
  methods :=
    rel_symm (fun _ _ => Json.Relisted.symm) hListed.methods

/- Such objects are read as the same record. -/
theorem ClassRecord.Relisted.exists_ofJson
    {fields others : List (String × Json)}
    (hListed : Relisted fields others)
    {c : ClassRecord}
    (hRead : ofJson (.obj fields) = .ok c) :
    ∃ d, ofJson (.obj others) = .ok d ∧ c.Same d := by
  unfold ofJson at hRead
  simp only [bind_eq_ok_iff] at hRead
  rcases hRead with
    ⟨methods, hMethods, value, hField, name, hName, superClass,
      hSuper, interfaces, hInterfaces, isInterface, hIs, hRecord⟩
  cases hRecord
  rcases Json.exists_slot_of_relisted hListed.methods
      hMethods with
    ⟨methods', hMethods', hSameMethods⟩
  rcases Json.exists_slot_of_relisted hListed.interfaces
      hInterfaces with
    ⟨interfaces', hInterfaces', hSameInterfaces⟩
  rw [Json.slot_obj, hListed.superClass, ← Json.slot_obj]
    at hSuper
  rw [Json.slot_obj, hListed.isInterface, ← Json.slot_obj] at hIs
  rw [Json.field, hListed.name] at hField
  have hOther : ofJson (.obj others) = .ok {
      name
      superClass := superClass.join
      interfaces := (interfaces'.getD []).eraseDups
      isInterface := isInterface.getD false
      methods := (methods'.getD []).eraseDups } := by
    unfold ofJson
    simp only [bind_eq_ok_iff]
    exact ⟨methods', hMethods', value, hField, name, hName,
      superClass, hSuper, interfaces', hInterfaces', isInterface,
      hIs, rfl⟩
  refine ⟨_, hOther, rfl, rfl, ?_, rfl, ?_⟩
  · intro i
    simp only [List.mem_eraseDups]
    exact hSameInterfaces i
  · intro m
    simp only [List.mem_eraseDups]
    exact hSameMethods m

namespace ClassBinding

/-
  What a class is bound to, with the sets in it listed in any
  order.
-/
inductive Reordered : ClassBinding → ClassBinding → Prop where
  | record
      {c d : ClassRecord}
      (hSame : c.Same d) :
      Reordered (record c) (record d)
  | fields
      {fields others : List (String × Json)}
      (hListed : ClassRecord.Relisted fields others) :
      Reordered (raw (.obj fields)) (raw (.obj others))
  | same (b : ClassBinding) : Reordered b b

variable {b b' : ClassBinding}

theorem Reordered.symm
    (hOrder : Reordered b b') :
    Reordered b' b := by
  cases hOrder with
  | record hSame => exact .record (hSame.symm _ _)
  | fields hListed => exact .fields hListed.symm
  | same => exact .same b

theorem Reordered.exists_read
    (hOrder : Reordered b b')
    {c : ClassRecord}
    (hRead : b.read = .ok c) :
    ∃ d, b'.read = .ok d ∧ c.Same d := by
  cases hOrder with
  | @record _ d hSame =>
      cases hRead
      exact ⟨d, rfl, hSame⟩
  | fields hListed => exact hListed.exists_ofJson hRead
  | same => exact ⟨c, hRead, .refl c⟩

/- Either both are read as the same record, or none is read. -/
theorem Reordered.rel_read
    (hOrder : Reordered b b') :
    Option.Rel ClassRecord.Same b.read.toOption
      b'.read.toOption := by
  cases hLeft : b.read with
  | ok c =>
      rcases hOrder.exists_read hLeft with ⟨d, hRight, hSame⟩
      rw [hRight]
      exact .some hSame
  | error e =>
      cases hRight : b'.read with
      | error e' => exact .none
      | ok d =>
          rcases hOrder.symm.exists_read hRight with
            ⟨c, hOther, -⟩
          rw [hLeft] at hOther
          cases hOther

end ClassBinding

------------------------------------------------------------
-- Reordered Additions
------------------------------------------------------------

namespace Addition

/- An addition with the sets in it listed in any order. -/
inductive Reordered : Addition → Addition → Prop where
  | facts
      {f g : MethodFacts}
      (hSame : f.Same g) :
      Reordered (facts f) (facts g)
  | known (s : Signature) : Reordered (known s) (known s)
  | binding
      (name : String)
      {b b' : ClassBinding}
      (hOrder : b.Reordered b') :
      Reordered (binding name b) (binding name b')

/- Where an addition goes: one of three maps, and a key in it. -/
inductive Place where
  | facts (s : Signature)
  | known (s : Signature)
  | binding (name : String)
  deriving DecidableEq

def place : Addition → Place
  | facts f => .facts f.signature
  | known s => .known s
  | binding name _ => .binding name

theorem Reordered.place_eq
    {a b : Addition}
    (hOrder : Reordered a b) :
    a.place = b.place := by
  cases hOrder with
  | facts hSame => rw [place, place, hSame.signature]
  | known s => rfl
  | binding name hOrder => rfl

end Addition

namespace Database

/-
  The same additions in another order, with the sets in them
  listed in any order.
-/
def Reordered
    (additions others : List Addition) : Prop :=
  ∃ between, additions.Perm between ∧
    List.Forall₂ Addition.Reordered between others

variable {settings : Settings}
variable {additions others : List Addition}
variable {db other : Database}

namespace Reordered

theorem exists_of_mem
    (hOrder : Reordered additions others)
    {a : Addition}
    (hMem : a ∈ additions) :
    ∃ b ∈ others, a.Reordered b := by
  rcases hOrder with ⟨between, hPerm, hAll⟩
  exact exists_of_mem_left hAll (hPerm.mem_iff.mp hMem)

theorem exists_of_mem_others
    (hOrder : Reordered additions others)
    {b : Addition}
    (hMem : b ∈ others) :
    ∃ a ∈ additions, a.Reordered b := by
  rcases hOrder with ⟨between, hPerm, hAll⟩
  rcases exists_of_mem_right hAll hMem with ⟨a, hOne, hSame⟩
  exact ⟨a, hPerm.mem_iff.mpr hOne, hSame⟩

/- The same places are filled. -/
theorem map_place_perm
    (hOrder : Reordered additions others) :
    (additions.map Addition.place).Perm
      (others.map Addition.place) := by
  rcases hOrder with ⟨between, hPerm, hAll⟩
  have hPlaces :
      List.Forall₂ Eq (between.map Addition.place)
        (others.map Addition.place) := by
    rw [List.forall₂_map_left_iff, List.forall₂_map_right_iff]
    exact hAll.imp fun _ _ hOne => hOne.place_eq
  rw [List.forall₂_eq_eq_eq] at hPlaces
  rw [← hPlaces]
  exact hPerm.map Addition.place

end Reordered

------------------------------------------------------------
-- Distinct Places
------------------------------------------------------------

/- What is added to a place of its own is found there. -/
theorem get?_facts_iff_of_fill
    (hFill : fill settings additions = .ok db)
    (hPlaces : (additions.map Addition.place).Nodup)
    (s : Signature)
    (f : MethodFacts) :
    db.facts.get? s = some f ↔
      .facts f ∈ additions ∧ f.signature = s := by
  constructor
  · intro hFacts
    exact (facts_of_fill hFill s f hFacts).symm
  · rintro ⟨hMem, rfl⟩
    have hKey : f.signature ∈ db.facts.keys := by
      rw [facts_eq_of_fill hFill, Table.mem_keys_ofList]
      exact List.mem_map.mpr ⟨(f.signature, f),
        List.mem_filterMap.mpr ⟨.facts f, hMem, rfl⟩, rfl⟩
    rcases (Table.mem_keys_iff _ _).mp hKey with ⟨g, hFound⟩
    rcases facts_of_fill hFill _ g hFound with ⟨hSame, hAdded⟩
    have hEqual :=
      List.inj_on_of_nodup_map hPlaces hAdded hMem
        (congrArg Addition.Place.facts hSame)
    cases hEqual
    exact hFound

theorem get?_classes_iff_of_fill
    (hFill : fill settings additions = .ok db)
    (hPlaces : (additions.map Addition.place).Nodup)
    (name : String)
    (b : ClassBinding) :
    db.classes.get? name = some b ↔
      .binding name b ∈ additions := by
  constructor
  · exact classes_of_fill hFill name b
  · intro hMem
    have hKey : name ∈ db.classes.keys := by
      rw [classes_eq_of_fill hFill, Table.mem_keys_ofList]
      exact List.mem_map.mpr ⟨(name, b),
        List.mem_filterMap.mpr ⟨.binding name b, hMem, rfl⟩, rfl⟩
    rcases (Table.mem_keys_iff _ _).mp hKey with ⟨b', hFound⟩
    have hEqual :=
      List.inj_on_of_nodup_map hPlaces
        (classes_of_fill hFill name b' hFound) hMem rfl
    cases hEqual
    exact hFound

------------------------------------------------------------
-- Same Fillings
------------------------------------------------------------

/-
  Databases that were filled with the same: the same settings,
  facts, known methods and classes.
-/
structure SameFilling
    (db other : Database) : Prop where
  settings : db.settings = other.settings
  facts :
    ∀ s, Option.Rel MethodFacts.Same (db.facts.get? s)
      (other.facts.get? s)
  bound : SameMembers db.bound other.bound
  classes : SameMembers db.classes.keys other.classes.keys
  records :
    ∀ name, Option.Rel ClassRecord.Same (db.recordOf name)
      (other.recordOf name)

namespace SameFilling

theorem symm
    (hSame : SameFilling db other) :
    SameFilling other db where
  settings := hSame.settings.symm
  facts := fun s =>
    rel_symm MethodFacts.Same.symm (hSame.facts s)
  bound := hSame.bound.symm
  classes := hSame.classes.symm
  records := fun name =>
    rel_symm ClassRecord.Same.symm (hSame.records name)

theorem exists_records
    (hSame : SameFilling db other)
    (hRecords : ∃ records, db.records = .ok records) :
    ∃ records, other.records = .ok records := by
  rw [exists_records_iff] at hRecords ⊢
  intro name hName
  rcases hRecords name ((hSame.classes name).mpr hName) with
    ⟨c, hRecord⟩
  rcases exists_of_rel_some (hSame.records name) hRecord with
    ⟨d, hOther, -⟩
  exact ⟨d, hOther⟩

/- Either both can be built, or none. -/
theorem build_failure_iff
    (hSame : SameFilling db other)
    (hLeft : db.isSealed = false)
    (hRight : other.isSealed = false) :
    db.build.failure = none ↔ other.build.failure = none := by
  rw [build_failure_eq_none_iff hLeft,
    build_failure_eq_none_iff hRight]
  exact ⟨hSame.exists_records, hSame.symm.exists_records⟩

/- Completed facts are the same as well. -/
theorem rel_completed
    (hSame : SameFilling db other)
    (s : Signature) :
    Option.Rel MethodFacts.Same
      ((db.facts.get? s).or
        (if s ∈ db.bound then some { signature := s }
          else none))
      ((other.facts.get? s).or
        (if s ∈ other.bound then some { signature := s }
          else none)) := by
  have hFacts := hSame.facts s
  simp only [hSame.bound s]
  generalize db.facts.get? s = left at hFacts
  generalize other.facts.get? s = right at hFacts
  cases hFacts with
  | some hOne => exact .some hOne
  | none =>
      simp only [Option.none_or]
      split
      · exact .some (.refl _)
      · exact .none

theorem sameContent_build
    (hSame : SameFilling db other)
    (hLeft : db.build.failure = none)
    (hRight : other.build.failure = none) :
    SameContent db.build.database other.build.database := by
  rcases build_spec hLeft with
    ⟨-, _, facts, _, _, -, hCompleted, -, -, hBuild⟩
  rcases build_spec hRight with
    ⟨-, _, others, _, _, -, hOthers, -, -, hBuildOther⟩
  rw [hBuild, hBuildOther]
  refine ⟨hSame.settings, ?_, hSame.classes, hSame.records⟩
  intro s
  change Option.Rel MethodFacts.Same (facts.get? s)
    (others.get? s)
  rw [hCompleted s, hOthers s]
  exact hSame.rel_completed s

/-
  Databases that were filled with the same are analysed the
  same, where no methods tie.
-/
theorem sameAnalysis
    (hSame : SameFilling db other)
    (hLeft : db.Unbuilt)
    (hRight : other.Unbuilt)
    (hSuccess : db.build.failure = none)
    (hNames : db.build.database.OwnNames)
    (hApart : db.build.database.Apart) :
    SameAnalysis db.build.database other.build.database := by
  have hOther :=
    (hSame.build_failure_iff hLeft.isOpen hRight.isOpen).mp
      hSuccess
  rcases hLeft.builtGraph hSuccess with ⟨_, hLeftGraph⟩
  rcases hRight.builtGraph hOther with ⟨_, hRightGraph⟩
  exact (hSame.sameContent_build hSuccess
    hOther).sameAnalysis_of_apart hLeftGraph hRightGraph hNames
      hApart

end SameFilling

------------------------------------------------------------
-- Reordered Fillings
------------------------------------------------------------

namespace Reordered

variable (hOrder : Reordered additions others)
variable (hPlaces : (additions.map Addition.place).Nodup)
variable (hLeft : fill settings additions = .ok db)
variable (hRight : fill settings others = .ok other)

include hOrder hPlaces hLeft hRight

theorem rel_facts
    (s : Signature) :
    Option.Rel MethodFacts.Same (db.facts.get? s)
      (other.facts.get? s) := by
  have hOthers := hOrder.map_place_perm.nodup_iff.mp hPlaces
  have hFacts := get?_facts_iff_of_fill hLeft hPlaces
  have hOtherFacts := get?_facts_iff_of_fill hRight hOthers
  apply rel_of_exists
  · intro f hFound
    rcases (hFacts s f).mp hFound with ⟨hMem, rfl⟩
    rcases hOrder.exists_of_mem hMem with ⟨_, hOther, hOne⟩
    cases hOne with
    | @facts _ g hSame =>
        exact ⟨g, (hOtherFacts _ g).mpr
          ⟨hOther, hSame.signature.symm⟩, hSame⟩
  · intro g hFound
    rcases (hOtherFacts s g).mp hFound with ⟨hMem, rfl⟩
    rcases hOrder.exists_of_mem_others hMem with
      ⟨_, hOther, hOne⟩
    cases hOne with
    | @facts f _ hSame =>
        exact ⟨f, (hFacts _ f).mpr ⟨hOther, hSame.signature⟩⟩

theorem rel_classes
    (name : String) :
    Option.Rel ClassBinding.Reordered (db.classes.get? name)
      (other.classes.get? name) := by
  have hOthers := hOrder.map_place_perm.nodup_iff.mp hPlaces
  have hClasses := get?_classes_iff_of_fill hLeft hPlaces
  have hOtherClasses := get?_classes_iff_of_fill hRight hOthers
  apply rel_of_exists
  · intro b hFound
    rcases hOrder.exists_of_mem ((hClasses name b).mp hFound) with
      ⟨_, hOther, hOne⟩
    cases hOne with
    | @binding _ _ b' hSame =>
        exact ⟨b', (hOtherClasses name b').mpr hOther, hSame⟩
  · intro b' hFound
    rcases hOrder.exists_of_mem_others
        ((hOtherClasses name b').mp hFound) with
      ⟨_, hOther, hOne⟩
    cases hOne with
    | @binding _ b _ hSame =>
        exact ⟨b, (hClasses name b).mpr hOther⟩

theorem rel_records
    (name : String) :
    Option.Rel ClassRecord.Same (db.recordOf name)
      (other.recordOf name) := by
  have hClasses := hOrder.rel_classes hPlaces hLeft hRight name
  unfold recordOf
  generalize db.classes.get? name = left at hClasses
  generalize other.classes.get? name = right at hClasses
  cases hClasses with
  | none => exact .none
  | some hSame => exact hSame.rel_read

/- What is filled in another order is filled the same. -/
theorem sameFilling :
    SameFilling db other where
  settings := by
    rw [settings_of_fill hLeft, settings_of_fill hRight]
  facts := hOrder.rel_facts hPlaces hLeft hRight
  bound := by
    intro s
    rw [mem_bound_iff_of_fill hLeft,
      mem_bound_iff_of_fill hRight]
    constructor
    · intro hMem
      rcases hOrder.exists_of_mem hMem with ⟨_, hOther, hOne⟩
      cases hOne with
      | known => exact hOther
    · intro hMem
      rcases hOrder.exists_of_mem_others hMem with
        ⟨_, hOther, hOne⟩
      cases hOne with
      | known => exact hOther
  classes := by
    intro name
    have hClasses :=
      eq_none_iff_of_rel
        (hOrder.rel_classes hPlaces hLeft hRight name)
    rw [Table.get?_eq_none_iff, Table.get?_eq_none_iff,
      not_iff_not] at hClasses
    exact hClasses
  records := hOrder.rel_records hPlaces hLeft hRight

end Reordered

/-
  The order in which a database is filled, and in which the
  sets in what is added are listed, does not matter. Where all
  additions go to places of their own, each class under the
  name of its record, and all packages have names, either both
  databases can be built or none, and what is built answers
  every question the same.
-/
theorem reordered_sameAnalysis
    (settings : Settings)
    (hOrder : Reordered additions others)
    (hPlaces : (additions.map Addition.place).Nodup)
    (hNames : ∀ a ∈ additions, a.OwnName)
    (hPackages :
      ∀ a ∈ additions, ∀ s ∈ a.signatures, s.NamedPackage) :
    ∃ db other,
      fill settings additions = .ok db ∧
      fill settings others = .ok other ∧
      (db.build.failure = none ↔
        other.build.failure = none) ∧
      (db.build.failure = none →
        SameAnalysis db.build.database
          other.build.database) := by
  rcases exists_fill settings additions with ⟨db, hLeft⟩
  rcases exists_fill settings others with ⟨other, hRight⟩
  have hSame := hOrder.sameFilling hPlaces hLeft hRight
  have hUnbuilt := unbuilt_of_fill hLeft
  have hOtherUnbuilt := unbuilt_of_fill hRight
  refine ⟨db, other, hLeft, hRight,
    hSame.build_failure_iff hUnbuilt.isOpen hOtherUnbuilt.isOpen,
    ?_⟩
  intro hSuccess
  have hBuilt :
      BuiltFrom settings additions db.build.database :=
    ⟨db, hLeft, hSuccess, rfl⟩
  exact hSame.sameAnalysis hUnbuilt hOtherUnbuilt hSuccess
    (hBuilt.ownNames hNames) (hBuilt.packagesNamed hPackages).apart

/-
  A caller with two calls that can run the method of one class,
  which throws. Around one of them it catches what is thrown.
-/
def listedForward : List Addition := [
  .binding "C" (.raw (.obj [
    ("fqn", .str "C"),
    ("interfaces", .arr [.str "A", .str "B"]),
    ("methods", .arr [.obj [
      ("class", .str "C"),
      ("name", .str "f")]])])),
  .facts {
    signature := { owner := "M", name := "g" }
    calls := [
      { owner := "A", name := "f" },
      { owner := "B", name := "f" }]
    handlers := .ofList [
      ({ owner := "B", name := "f" }, ["F", "E"])] },
  .facts {
    signature := { owner := "C", name := "f" }
    thrown := ["E"] },
  .known { owner := "A", name := "f" }]

/- The same, everything in it listed the other way round. -/
def listedBackward : List Addition := [
  .known { owner := "A", name := "f" },
  .facts {
    signature := { owner := "C", name := "f" }
    thrown := ["E"] },
  .facts {
    signature := { owner := "M", name := "g" }
    calls := [
      { owner := "B", name := "f" },
      { owner := "A", name := "f" }]
    handlers := .ofList [
      ({ owner := "B", name := "f" }, ["E", "F"])] },
  .binding "C" (.raw (.obj [
    ("methods", .arr [.obj [
      ("class", .str "C"),
      ("name", .str "f")]]),
    ("interfaces", .arr [.str "B", .str "A"]),
    ("fqn", .str "C")]))]

theorem reordered_listedForward :
    Reordered listedForward listedBackward := by
  have hClass :
      ClassRecord.Relisted
        [("fqn", .str "C"),
          ("interfaces", .arr [.str "A", .str "B"]),
          ("methods", .arr [.obj [
            ("class", .str "C"), ("name", .str "f")]])]
        [("methods", .arr [.obj [
            ("class", .str "C"), ("name", .str "f")]]),
          ("interfaces", .arr [.str "B", .str "A"]),
          ("fqn", .str "C")] := by
    refine ⟨rfl, rfl, rfl, ?_, ?_⟩
    · exact .some (.inr ⟨_, _, rfl, rfl, .swap _ _ _⟩)
    · exact .some (.inl rfl)
  refine ⟨listedForward.reverse,
    (List.reverse_perm listedForward).symm, ?_⟩
  refine .cons (.known _) (.cons (.facts (.refl _))
    (.cons (.facts ⟨rfl, ?_, fun _ => Iff.rfl, ?_⟩)
      (.cons (.binding "C" (.fields hClass)) .nil)))
  · intro s
    exact (List.Perm.swap _ _ []).mem_iff
  · intro callee
    simp only [Table.ofList, List.foldl_cons, List.foldl_nil,
      Table.get?_insert, Table.get?_empty]
    split
    · exact .some fun _ => (List.Perm.swap _ _ []).mem_iff
    · exact .none

/- Both orders can be built, with the same answers. -/
theorem reordered_sameAnalysis_listedForward :
    ∃ db other,
      fill {} listedForward = .ok db ∧
      fill {} listedBackward = .ok other ∧
      db.build.failure = none ∧
      SameAnalysis db.build.database other.build.database := by
  have hNames : ∀ a ∈ listedForward, a.OwnName := by
    intro a ha
    simp only [listedForward, List.mem_cons, List.not_mem_nil,
      or_false] at ha
    rcases ha with rfl | rfl | rfl | rfl
    · intro c hRead
      cases hRead
      rfl
    all_goals trivial
  have hPackages :
      ∀ a ∈ listedForward, ∀ s ∈ a.signatures,
        s.NamedPackage := by
    decide
  rcases reordered_sameAnalysis {} reordered_listedForward
      (by decide) hNames hPackages with
    ⟨db, other, hLeft, hRight, -, hSame⟩
  have hSuccess : db.build.failure = none := by
    cases hLeft
    rfl
  exact ⟨db, other, hLeft, hRight, hSuccess, hSame hSuccess⟩

end Database

end Uncaught
