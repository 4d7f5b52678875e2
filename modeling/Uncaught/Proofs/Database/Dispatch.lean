import Uncaught.Proofs.Database.Filling

/-
  This file defines what the calls of a database mean: which
  class stands below which, which methods a written call can
  run, and which callers so call a method. It then shows that
  the dispatched calls of a built database are just these.

  Key definitions include:
    * `Database.recordOf`
    * `Database.Below`
    * `Database.RunsAs`
    * `Database.CallsAs`
    * `Database.IsLastCall`
    * `Database.OwnRecords`

  Main declarations:
    * `Database.runsAs_iff`
    * `Database.GraphOf.mem_dispatches_iff`
-/

namespace Uncaught

namespace Database

open Relation

------------------------------------------------------------
-- Meaning
------------------------------------------------------------

/- The record of the class that is bound under a name. -/
def recordOf
    (db : Database)
    (name : String) : Option ClassRecord :=
  (db.classes.get? name).bind fun b => b.read.toOption

/-
  The record of a class puts it directly under another class
  than itself.
-/
def DirectlyUnder
    (db : Database)
    (sub sup : String) : Prop :=
  ∃ c, db.recordOf sub = some c ∧ c.StandsUnder sup ∧ sup ≠ sub

/-
  A class stands below another one, through one record or
  through several of them.
-/
def Below
    (db : Database) : String → String → Prop :=
  TransGen db.DirectlyUnder

/-
  A call that is written for a method can run another: the
  method itself, or one that a class below declares with the
  same name and the same parameter types.
-/
def RunsAs
    (db : Database)
    (written callee : Signature) : Prop :=
  callee = written ∨
    ∃ sub c, db.recordOf sub = some c ∧
      db.Below sub written.owner ∧ callee ∈ c.methods ∧
        callee.name = written.name ∧
          callee.params = written.params

/- A method has a written call that can run another method. -/
def CallsAs
    (db : Database)
    (caller written callee : Signature) : Prop :=
  ∃ f, db.facts.get? caller = some f ∧ written ∈ f.calls ∧
    db.RunsAs written callee

/-
  Of the calls of a caller that can run a method, the one that
  is written for the last method in order.
-/
def IsLastCall
    (db : Database)
    (caller callee written : Signature) : Prop :=
  db.CallsAs caller written callee ∧
    ∀ other, db.CallsAs caller other callee →
      other ≠ written → Signature.order other written = .lt

/- Classes are bound under the names of their records. -/
def OwnNames
    (db : Database) : Prop :=
  ∀ name b c, db.classes.get? name = some b →
    b.read = .ok c → c.name = name

/- Each class is bound to a record that has its name. -/
def OwnRecords
    (db : Database) : Prop :=
  ∀ name b, db.classes.get? name = some b →
    ∃ c, b.read = .ok c ∧ c.name = name

------------------------------------------------------------
-- Records
------------------------------------------------------------

variable {db : Database} {records : List ClassRecord}
variable {settings : Settings} {additions : List Addition}

theorem recordOf_eq_some_iff
    (db : Database)
    (name : String)
    (c : ClassRecord) :
    db.recordOf name = some c ↔
      ∃ b, db.classes.get? name = some b ∧ b.read = .ok c := by
  simp only [recordOf, Option.bind_eq_some_iff,
    toOption_eq_some_iff]

theorem OwnRecords.mem_keys_classes_iff
    (hClasses : db.OwnRecords)
    (name : String) :
    name ∈ db.classes.keys ↔
      ∃ c, db.recordOf name = some c := by
  simp only [Table.mem_keys_iff, recordOf_eq_some_iff]
  constructor
  · rintro ⟨b, hClass⟩
    rcases hClasses name b hClass with ⟨c, hRead, -⟩
    exact ⟨c, b, hClass, hRead⟩
  · rintro ⟨c, b, hClass, -⟩
    exact ⟨b, hClass⟩

/- All classes can be read if each has its record. -/
theorem exists_records_iff
    (db : Database) :
    (∃ records, db.records = .ok records) ↔
      ∀ name ∈ db.classes.keys,
        ∃ c, db.recordOf name = some c := by
  simp only [recordOf_eq_some_iff]
  constructor
  · rintro ⟨records, hRecords⟩ name hName
    rcases (Table.mem_keys_iff _ _).mp hName with ⟨b, hClass⟩
    rcases exists_of_mem_left (forall₂_records hRecords)
        ((Table.mem_values_iff _ _).mpr ⟨name, hClass⟩) with
      ⟨c, -, hRead⟩
    exact ⟨c, b, hClass, hRead⟩
  · intro hNames
    have hRead :
        ∀ b ∈ db.classes.values, ∃ c, b.read = .ok c := by
      intro b hb
      rcases (Table.mem_values_iff _ _).mp hb with
        ⟨name, hClass⟩
      rcases hNames name
          ((Table.mem_keys_iff _ _).mpr ⟨b, hClass⟩) with
        ⟨c, b', hClass', hRead⟩
      rw [hClass] at hClass'
      cases hClass'
      exact ⟨c, hRead⟩
    rcases exists_forall₂ hRead with ⟨records, hRecords⟩
    exact ⟨records, mapError_eq_ok_iff.mpr
      (mapM_eq_ok_of_forall₂ hRecords)⟩

theorem OwnRecords.ownNames
    (hClasses : db.OwnRecords) :
    db.OwnNames := by
  intro name b c hClass hRead
  rcases hClasses name b hClass with ⟨d, hRead', hName⟩
  rw [hRead] at hRead'
  cases hRead'
  exact hName

/- Where all classes have their records, building succeeds. -/
theorem OwnRecords.build_failure_eq_none
    (hClasses : db.OwnRecords)
    (hOpen : db.isSealed = false) :
    db.build.failure = none := by
  rw [build_failure_eq_none_iff hOpen, exists_records_iff]
  intro name hName
  exact (hClasses.mem_keys_classes_iff name).mp hName

theorem BuiltFrom.ownNames
    (hBuilt : BuiltFrom settings additions db)
    (hNames : ∀ a ∈ additions, a.OwnName) :
    db.OwnNames := by
  intro name b c hClass hRead
  exact hNames _ (hBuilt.classes hClass) c hRead

/- With own names, the records are those of their names. -/
theorem mem_records_iff_recordOf
    (hNames : db.OwnNames)
    (hRecords : db.records = .ok records)
    (c : ClassRecord) :
    c ∈ records ↔ db.recordOf c.name = some c := by
  rw [mem_records_iff hRecords, recordOf_eq_some_iff]
  constructor
  · rintro ⟨name, b, hClass, hRead⟩
    rw [hNames name b c hClass hRead]
    exact ⟨b, hClass, hRead⟩
  · rintro ⟨b, hClass, hRead⟩
    exact ⟨c.name, b, hClass, hRead⟩

theorem name_eq_of_recordOf
    (hNames : db.OwnNames)
    {name : String}
    {c : ClassRecord}
    (hRecord : db.recordOf name = some c) :
    c.name = name := by
  rcases (recordOf_eq_some_iff db name c).mp hRecord with
    ⟨b, hClass, hRead⟩
  exact hNames name b c hClass hRead

/- What the records say of classes is what the database says. -/
theorem link_eq_directlyUnder
    (hNames : db.OwnNames)
    (hRecords : db.records = .ok records) :
    Hierarchy.Link records = db.DirectlyUnder := by
  funext sub sup
  apply propext
  constructor
  · rintro ⟨c, hMem, rfl, hUnder, hOther⟩
    have hRecord :=
      (mem_records_iff_recordOf hNames hRecords c).mp hMem
    exact ⟨c, hRecord, hUnder, hOther⟩
  · rintro ⟨c, hRecord, hUnder, hOther⟩
    have hName := name_eq_of_recordOf hNames hRecord
    subst hName
    have hMem :=
      (mem_records_iff_recordOf hNames hRecords c).mpr hRecord
    exact ⟨c, hMem, rfl, hUnder, hOther⟩

/- The hierarchy finds the record of each name. -/
theorem get?_hierarchy_records_iff
    (hNames : db.OwnNames)
    (hRecords : db.records = .ok records)
    (name : String)
    (c : ClassRecord) :
    (Hierarchy.ofRecords records).records.get? name = some c ↔
      db.recordOf name = some c := by
  have hFound :
      ∀ d, (Hierarchy.ofRecords records).records.get? name =
          some d → db.recordOf name = some d := by
    intro d hGet
    have hMem := Table.mem_of_get?_ofList hGet
    rcases List.mem_map.mp hMem with ⟨d', hRecord, hEntry⟩
    cases hEntry
    exact (mem_records_iff_recordOf hNames hRecords d).mp
      hRecord
  constructor
  · exact hFound c
  · intro hRecord
    have hName := name_eq_of_recordOf hNames hRecord
    subst hName
    have hMem :=
      (mem_records_iff_recordOf hNames hRecords c).mpr hRecord
    have hKey :
        c.name ∈ (Hierarchy.ofRecords records).records.keys :=
      (Table.mem_keys_ofList _ _).mpr
        (List.mem_map.mpr
          ⟨(c.name, c), List.mem_map.mpr ⟨c, hMem, rfl⟩, rfl⟩)
    rcases (Table.mem_keys_iff _ _).mp hKey with ⟨d, hGet⟩
    have hSame := hFound d hGet
    rw [hRecord] at hSame
    cases hSame
    exact hGet

------------------------------------------------------------
-- Dispatched Calls
------------------------------------------------------------

/- The hierarchy overrides a method as the database says. -/
theorem runsAs_iff
    (hNames : db.OwnNames)
    (hRecords : db.records = .ok records)
    (written callee : Signature) :
    db.RunsAs written callee ↔
      callee = written ∨
        callee ∈ (Hierarchy.ofRecords records).overriding
          written.owner written := by
  rw [Hierarchy.mem_overriding_iff,
    link_eq_directlyUnder hNames hRecords]
  simp only [get?_hierarchy_records_iff hNames hRecords]
  unfold RunsAs Below
  constructor
  · rintro (hSame | ⟨sub, c, hRecord, hBelow, hMethod⟩)
    · exact .inl hSame
    · exact .inr ⟨sub, c, hBelow, hRecord, hMethod⟩
  · rintro (hSame | ⟨sub, c, hBelow, hRecord, hMethod⟩)
    · exact .inl hSame
    · exact .inr ⟨sub, c, hRecord, hBelow, hMethod⟩

/- The dispatched calls are the ones that can run. -/
theorem GraphOf.mem_dispatches_iff
    (hGraph : db.GraphOf records)
    (hNames : db.OwnNames)
    (e : DispatchEdge) :
    e ∈ db.dispatches ↔
      db.CallsAs e.caller e.written e.callee := by
  rw [hGraph.mem_dispatches]
  unfold CallsAs
  simp only [runsAs_iff hNames hGraph.records_eq]
  constructor
  · rintro ⟨call, hWritten, hDispatch⟩
    rcases (mem_dispatch_iff _ _ _).mp hDispatch with
      ⟨hCaller, hCallee, hRuns⟩
    rcases (mem_writtenCalls_iff _ _).mp hWritten with
      ⟨f, hFacts, hCall⟩
    rw [hCaller, hCallee]
    exact ⟨f, hFacts, hCall, hRuns⟩
  · rintro ⟨f, hFacts, hCall, hRuns⟩
    refine ⟨⟨e.caller, e.written⟩, ?_, ?_⟩
    · exact (mem_writtenCalls_iff _ _).mpr ⟨f, hFacts, hCall⟩
    · exact (mem_dispatch_iff _ _ _).mpr ⟨rfl, rfl, hRuns⟩

end Database

end Uncaught
