import Uncaught.Proofs.Database.CallGraph
import Uncaught.Proofs.Resolve.Totality

/-
  The database that a resolution is put into. It holds the facts
  of the resolution, knows the declared methods and the ones
  outside that are called, and has a record for each type of
  the project and of the platform, so that it can be built.
  What is built is closed: every method that is named in it has
  facts.

  Key definitions include:
    * `Resolution.additions`
    * `Resolution.recordOf`
    * `Resolution.Knows`
    * `Resolution.Populates`
    * `Database.Closed`

  Main declarations:
    * `Resolution.populate_empty`
    * `Resolution.Resolves.exists_populate`
    * `Resolution.populate_closed`
-/

namespace Uncaught

open Symbols (Target)

namespace Resolution

variable {files : List FileSummary} {r : Resolution}
variable {bodies : List (Signature × List Effect)}

------------------------------------------------------------
-- Additions
------------------------------------------------------------

/- What a resolution puts into a database, in order. -/
def additions
    (r : Resolution) : List Addition :=
  (Platform.classes ++ r.classes).map
      (fun c => .binding c.name (.record c))
    ++ r.facts.values.map .facts ++ r.bound.map .known

theorem populate_empty
    (settings : Settings)
    (r : Resolution) :
    r.populate (.empty settings) =
      Database.fill settings r.additions := by
  unfold populate Database.fill additions
  simp only [List.foldlM_append, List.foldlM_map, bind_assoc]
  rfl

------------------------------------------------------------
-- Records
------------------------------------------------------------

/- The record of a class of the platform. -/
def platformRecord
    (name : String) : Option ClassRecord :=
  (Table.ofList
    (Platform.classes.map fun c => (c.name, c))).get? name

/-
  The record that a class has in the end: the one of the project
  comes before the one of the platform.
-/
def recordOf
    (r : Resolution)
    (name : String) : Option ClassRecord :=
  ((r.class? name).map fun c => distinct c.record).or
    (platformRecord name)

theorem name_of_class?
    {name : String}
    {c : LocatedClass}
    (hClass : r.class? name = some c) :
    (distinct c.record).name = name := by
  rcases Option.map_eq_some_iff.mp hClass with ⟨t, -, rfl⟩
  rfl

theorem mem_classes_iff
    (r : Resolution)
    (c : ClassRecord) :
    c ∈ r.classes ↔
      (r.class? c.name).map (fun c => distinct c.record) =
        some c := by
  simp only [classes, List.mem_filterMap, mem_sortNames,
    Option.map_eq_some_iff]
  constructor
  · rintro ⟨name, -, d, hClass, rfl⟩
    refine ⟨d, ?_, rfl⟩
    rwa [name_of_class? hClass]
  · rintro ⟨d, hClass, hRecord⟩
    refine ⟨c.name, ?_, d, hClass, hRecord⟩
    rcases Option.map_eq_some_iff.mp hClass with ⟨t, hType, -⟩
    exact (Table.mem_keys_iff _ _).mpr ⟨t, hType⟩

/- Each type of the project has one record. -/
theorem nodup_name_classes
    (r : Resolution) :
    (r.classes.map ClassRecord.name).Nodup := by
  have hKeys : (sortNames r.symbols.names.types.keys).Nodup :=
    (List.mergeSort_perm _ _).nodup_iff.mpr
      r.symbols.names.types.nodup
  rw [classes, List.map_filterMap]
  refine hKeys.filterMap ?_
  intro name other found hName hOther
  simp only [Option.map_map, Option.mem_def,
    Option.map_eq_some_iff, Function.comp_apply] at hName hOther
  rcases hName with ⟨c, hClass, rfl⟩
  rcases hOther with ⟨d, hOther, hSame⟩
  rw [← name_of_class? hClass, ← name_of_class? hOther, hSame]

/- A type of the project is found with its record. -/
theorem lookup_classes
    (r : Resolution)
    (name : String) :
    (r.classes.map fun c => (c.name, c)).reverse.lookup name =
      (r.class? name).map fun c => distinct c.record := by
  have hNodup :
      ((r.classes.map fun c => (c.name, c)).reverse.map
        Prod.fst).Nodup := by
    rw [List.map_reverse, List.map_map, List.nodup_reverse]
    exact r.nodup_name_classes
  ext c
  rw [Table.lookup_eq_some_iff_mem hNodup, List.mem_reverse,
    List.mem_map]
  constructor
  · rintro ⟨d, hMem, hEntry⟩
    cases hEntry
    exact (r.mem_classes_iff c).mp hMem
  · intro hClass
    rcases Option.map_eq_some_iff.mp hClass with
      ⟨d, hFound, rfl⟩
    have hName := name_of_class? hFound
    refine ⟨distinct d.record, ?_, by rw [hName]⟩
    rw [mem_classes_iff, hName, hFound]
    rfl

/- The classes of a filled database have their final records. -/
theorem recordOf_of_fill
    {settings : Settings}
    {db : Database}
    (hFill : Database.fill settings r.additions = .ok db)
    (name : String) :
    db.recordOf name = r.recordOf name := by
  have hEntries :
      r.additions.filterMap Addition.classEntry =
        ((Platform.classes ++ r.classes).map
          fun c => (c.name, c)).map
            fun e => (e.1, ClassBinding.record e.2) := by
    simp [additions, List.filterMap_append, List.filterMap_map,
      Function.comp_def, Addition.classEntry]
  rw [Database.recordOf, Database.classes_eq_of_fill hFill,
    Table.get?_ofList, hEntries, ← List.map_reverse,
    Table.lookup_map_snd, List.map_append, List.reverse_append,
    List.lookup_append, lookup_classes, ← Table.get?_ofList,
    ← platformRecord, ← recordOf]
  cases r.recordOf name <;> rfl

/- The classes of the platform declare no methods. -/
theorem of_platformRecord
    {name : String}
    {c : ClassRecord}
    (hRecord : platformRecord name = some c) :
    c.name = name ∧ c.methods = [] := by
  rcases List.mem_map.mp (Table.mem_of_get?_ofList hRecord) with
    ⟨d, hClass, hEntry⟩
  cases hEntry
  refine ⟨rfl, ?_⟩
  rcases List.mem_cons.mp hClass with rfl | hException
  · rfl
  · rcases List.mem_map.mp hException with ⟨e, -, rfl⟩
    rfl

/- A type of the project has the record of its declaration. -/
theorem recordOf_of_declares
    {name : String}
    (hDeclares : r.symbols.names.declares name = true) :
    ∃ c, r.recordOf name = some c ∧
      (∀ sup ∈ r.symbols.links.supertypes name, sup ≠ "" →
        c.StandsUnder sup) ∧
      ∀ d ∈ r.symbols.methodsOf name,
        d.signature ∈ c.methods := by
  rcases (Names.declares_iff _ _).mp hDeclares with ⟨t, hType⟩
  have hRecord :
      r.recordOf name =
        some (distinct
          { name
            superClass := r.symbols.links.parents.get? name
            interfaces :=
              (r.symbols.links.interfaces.get? name).getD []
            isInterface := t.summary.isInterface
            methods := (r.symbols.methodsOf name).map
              (·.signature) }) := by
    rw [recordOf, class?, hType]
    rfl
  refine ⟨_, hRecord, ?_, ?_⟩
  · intro sup hSuper hName
    rcases List.mem_append.mp hSuper with hParent | hInterface
    · exact .inl ⟨Option.mem_toList.mp hParent, hName⟩
    · exact .inr (List.mem_eraseDups.mpr hInterface)
  · intro d hMethod
    exact List.mem_eraseDups.mpr (List.mem_map.mpr
      ⟨d, hMethod, rfl⟩)

/- Only declared methods stand in records. -/
theorem declares_of_recordOf
    (hSymbols : Symbols.ofFiles files = .ok r.symbols)
    {name : String}
    {c : ClassRecord}
    (hRecord : r.recordOf name = some c)
    {m : Signature}
    (hMem : m ∈ c.methods) :
    r.symbols.Declares m := by
  rcases Option.or_eq_some_iff.mp hRecord with
    hProject | ⟨-, hPlatform⟩
  · rcases Option.map_eq_some_iff.mp hProject with
      ⟨d, hClass, rfl⟩
    rcases Option.map_eq_some_iff.mp hClass with ⟨t, -, rfl⟩
    rcases List.mem_map.mp (List.mem_eraseDups.mp hMem) with
      ⟨method, hMethod, rfl⟩
    exact (Symbols.declares_of_mem_methodsOf hSymbols hMethod).2
  · rw [(of_platformRecord hPlatform).2] at hMem
    cases hMem

------------------------------------------------------------
-- Populated Databases
------------------------------------------------------------

/- A method is declared, or lies outside and is called. -/
def Knows
    (r : Resolution)
    (s : Signature) : Prop :=
  r.symbols.Declares s ∨ s ∈ r.externals

/- A database that holds a resolution, and is not built yet. -/
structure Populates
    (r : Resolution)
    (settings : Settings)
    (db : Database) : Prop where
  unbuilt : db.Unbuilt
  settings : db.settings = settings
  facts : ∀ s, db.facts.get? s = r.facts.get? s
  bound : ∀ s, s ∈ db.bound ↔ r.Knows s
  records : ∀ name, db.recordOf name = r.recordOf name
  ownRecords : db.OwnRecords

theorem get?_facts_of_fill
    (hOwn : r.OwnFacts)
    {settings : Settings}
    {db : Database}
    (hFill : Database.fill settings r.additions = .ok db)
    (s : Signature) :
    db.facts.get? s = r.facts.get? s := by
  have hEntries :
      r.additions.filterMap Addition.factsEntry =
        r.facts.entries := by
    have hOwnEntry :
        ∀ e ∈ r.facts.entries, (e.2.signature, e.2) = e := by
      intro e he
      have hFacts := (Table.get?_eq_some_iff _ e.1 e.2).mpr he
      rw [hOwn e.1 e.2 hFacts]
    simp only [additions, List.filterMap_append,
      List.filterMap_map, Function.comp_def, Addition.factsEntry,
      List.filterMap_none, List.nil_append, List.append_nil,
      Table.values]
    rw [List.filterMap_eq_map', List.map_congr_left hOwnEntry]
    exact List.map_id' _
  rw [Database.facts_eq_of_fill hFill, hEntries, Table.get?,
    Table.entries_ofList r.facts.nodup, Table.get?]

/- A resolution can be put into any new database. -/
theorem Resolves.exists_populate
    (hResolves : Resolves files bodies r)
    (settings : Settings) :
    ∃ db, r.populate (.empty settings) = .ok db ∧
      Populates r settings db := by
  rcases Database.exists_fill settings r.additions with
    ⟨db, hFill⟩
  rw [populate_empty]
  refine ⟨db, hFill, ?_⟩
  refine
    { unbuilt := Database.unbuilt_of_fill hFill
      settings := Database.settings_of_fill hFill
      facts := get?_facts_of_fill hResolves.ownFacts hFill
      bound := ?_
      records := recordOf_of_fill hFill
      ownRecords := ?_ }
  · intro s
    rw [Database.mem_bound_iff_of_fill hFill, Knows,
      ← Symbols.mem_declared_iff hResolves.symbols_eq]
    simp [additions, bound]
  · intro name b hClass
    have hMem := Database.classes_of_fill hFill name b hClass
    simp only [additions, List.mem_append, List.mem_map,
      reduceCtorEq, and_false, exists_false, or_false,
      Addition.binding.injEq] at hMem
    rcases hMem with ⟨c, -, hName, rfl⟩
    exact ⟨c, rfl, hName⟩

namespace Populates

variable {settings : Settings} {db : Database}
variable (hPopulates : Populates r settings db)

include hPopulates

/- What holds a resolution can be built. -/
theorem build_failure_eq_none :
    db.build.failure = none :=
  hPopulates.ownRecords.build_failure_eq_none
    hPopulates.unbuilt.isOpen

theorem get?_facts_build
    (s : Signature) :
    db.build.database.facts.get? s =
      (r.facts.get? s).or
        (if s ∈ db.bound then some { signature := s }
          else none) := by
  rcases Database.build_spec hPopulates.build_failure_eq_none
    with ⟨-, _, facts, _, _, -, hCompleted, -, -, hBuild⟩
  rw [hBuild]
  change facts.get? s = _
  rw [hCompleted s, hPopulates.facts s]

theorem classes_build :
    db.build.database.classes = db.classes := by
  rcases Database.build_spec hPopulates.build_failure_eq_none
    with ⟨-, _, _, _, _, -, -, -, -, hBuild⟩
  rw [hBuild]

theorem recordOf_build
    (name : String) :
    db.build.database.recordOf name = r.recordOf name := by
  rw [Database.recordOf, hPopulates.classes_build,
    ← Database.recordOf, hPopulates.records name]

theorem ownNames_build :
    db.build.database.OwnNames := by
  unfold Database.OwnNames
  rw [hPopulates.classes_build]
  exact hPopulates.ownRecords.ownNames

/- Methods have facts after building that the resolution knows. -/
theorem mem_keys_facts_build_iff
    (hResolves : Resolves files bodies r)
    (s : Signature) :
    s ∈ db.build.database.facts.keys ↔ r.Knows s := by
  rw [Table.mem_keys_iff, hPopulates.get?_facts_build s]
  have hDeclared := hResolves.mem_keys_facts_iff s
  rw [Table.mem_keys_iff] at hDeclared
  cases hFacts : r.facts.get? s with
  | some f =>
      rw [hFacts] at hDeclared
      refine ⟨fun _ => .inl (hDeclared.mp ⟨f, rfl⟩), fun _ => ?_⟩
      exact ⟨f, rfl⟩
  | none =>
      rw [← hPopulates.bound s]
      by_cases hKnown : s ∈ db.bound <;> simp [hKnown]

end Populates

------------------------------------------------------------
-- Closed Databases
------------------------------------------------------------

/- What a body calls is known. -/
theorem Resolves.knows_of_mem_calls
    (hResolves : Resolves files bodies r)
    {s c : Signature}
    {f : MethodFacts}
    (hFacts : r.facts.get? s = some f)
    (hCall : c ∈ f.calls) :
    r.Knows c := by
  rcases (hResolves.has_iff s (.calls c)).mp ⟨f, hFacts, hCall⟩
    with ⟨body, hBody, -, e, hEffect, hMakes⟩
  cases e with
  | call t caught =>
      have hFinds := hResolves.finds hBody hEffect
      cases t with
      | declared sig =>
          cases hMakes
          exact .inl hFinds
      | external sig =>
          cases hMakes
          exact .inr ((hResolves.mem_externals_iff sig).mpr
            ⟨body, hBody, _, hEffect, rfl⟩)
  | _ => exact hMakes.elim

/- Handlers stand around calls. -/
theorem Resolves.mem_calls_of_handlers
    (hResolves : Resolves files bodies r)
    {s c : Signature}
    {f : MethodFacts}
    (hFacts : r.facts.get? s = some f)
    (hHandler : c ∈ f.handlers.keys) :
    c ∈ f.calls := by
  rcases (hResolves.has_iff s (.guards c)).mp
      ⟨f, hFacts, hHandler⟩ with
    ⟨body, hBody, hMethod, e, hEffect, hMakes⟩
  cases e with
  | call t caught =>
      rcases (hResolves.has_iff s (.calls c)).mpr
          ⟨body, hBody, hMethod, _, hEffect, hMakes.1⟩ with
        ⟨g, hSame, hCall⟩
      rw [hFacts] at hSame
      cases hSame
      exact hCall
  | _ => exact hMakes.elim

end Resolution

/-
  A database in which every method that is named has facts: in
  calls as they are written and as they can run, around
  handlers, in records, and in the index of callers. The index
  has a place for every method with facts, and every handler
  stands around a call.
-/
structure Database.Closed
    (db : Database) : Prop where
  calls :
    ∀ e ∈ db.calls,
      e.caller ∈ db.facts.keys ∧ e.callee ∈ db.facts.keys
  dispatches :
    ∀ e ∈ db.dispatches,
      e.caller ∈ db.facts.keys ∧ e.callee ∈ db.facts.keys ∧
        e.written ∈ db.facts.keys
  handlers :
    ∀ s f, db.facts.get? s = some f →
      ∀ c ∈ f.handlers.keys, c ∈ db.facts.keys ∧ c ∈ f.calls
  methods :
    ∀ name c, db.recordOf name = some c →
      ∀ m ∈ c.methods, m ∈ db.facts.keys
  callers :
    ∀ m, m ∈ db.callers.keys ↔ m ∈ db.facts.keys
  index :
    ∀ callee caller e,
      db.edgeBetween callee caller = some e →
        caller ∈ db.facts.keys ∧ e ∈ db.dispatches

namespace Resolution

namespace Populates

variable {settings : Settings} {db : Database}
variable (hResolves : Resolves files bodies r)
variable (hPopulates : Populates r settings db)

include hResolves hPopulates

/- Written calls and the handlers around them are in order. -/
theorem of_get?_facts_build
    {s : Signature}
    {f : MethodFacts}
    (hFacts : db.build.database.facts.get? s = some f) :
    (∀ c ∈ f.calls, c ∈ db.build.database.facts.keys) ∧
      ∀ c ∈ f.handlers.keys, c ∈ f.calls := by
  simp only [hPopulates.mem_keys_facts_build_iff hResolves]
  rw [hPopulates.get?_facts_build s, Option.or_eq_some_iff]
    at hFacts
  rcases hFacts with hResolved | ⟨-, hBare⟩
  · exact ⟨fun c => hResolves.knows_of_mem_calls hResolved,
      fun c => hResolves.mem_calls_of_handlers hResolved⟩
  · split at hBare
    · cases hBare
      simp
    · cases hBare

theorem mem_keys_of_recordOf
    {name : String}
    {c : ClassRecord}
    (hRecord : db.build.database.recordOf name = some c)
    {m : Signature}
    (hMethod : m ∈ c.methods) :
    m ∈ db.build.database.facts.keys := by
  rw [hPopulates.recordOf_build] at hRecord
  rw [hPopulates.mem_keys_facts_build_iff hResolves]
  exact .inl (declares_of_recordOf hResolves.symbols_eq hRecord
    hMethod)

/- A call runs what is written, or a method of a record. -/
theorem mem_keys_of_callsAs
    {caller written callee : Signature}
    (hCalls :
      db.build.database.CallsAs caller written callee) :
    caller ∈ db.build.database.facts.keys ∧
      callee ∈ db.build.database.facts.keys ∧
        written ∈ db.build.database.facts.keys := by
  rcases hCalls with ⟨f, hFacts, hWritten, hRuns⟩
  have hKey :=
    (hPopulates.of_get?_facts_build hResolves hFacts).1 written
      hWritten
  refine ⟨(Table.mem_keys_iff _ _).mpr ⟨f, hFacts⟩, ?_, hKey⟩
  rcases hRuns with rfl | ⟨sub, c, hRecord, -, hMethod, -⟩
  · exact hKey
  · exact hPopulates.mem_keys_of_recordOf hResolves hRecord
      hMethod

/- What is built of a resolution is closed. -/
theorem closed_build :
    db.build.database.Closed := by
  rcases hPopulates.unbuilt.builtGraph
      hPopulates.build_failure_eq_none with
    ⟨records, hGraph⟩
  have hNames := hPopulates.ownNames_build
  have hDispatches := hGraph.mem_dispatches_iff hNames
  refine
    { calls := ?_
      dispatches := ?_
      handlers := ?_
      methods := fun name c hRecord m =>
        hPopulates.mem_keys_of_recordOf hResolves hRecord
      callers := ?_
      index := ?_ }
  · intro e hMem
    rcases (Database.mem_writtenCalls_iff _ _).mp
        ((hGraph.mem_calls e).mp hMem) with
      ⟨f, hFacts, hCall⟩
    exact ⟨(Table.mem_keys_iff _ _).mpr ⟨f, hFacts⟩,
      (hPopulates.of_get?_facts_build hResolves hFacts).1 _
        hCall⟩
  · intro e hMem
    exact hPopulates.mem_keys_of_callsAs hResolves
      ((hDispatches e).mp hMem)
  · intro s f hFacts c hHandler
    rcases hPopulates.of_get?_facts_build hResolves hFacts with
      ⟨hCalls, hHandlers⟩
    have hCall := hHandlers c hHandler
    exact ⟨hCalls c hCall, hCall⟩
  · intro m
    rw [hGraph.mem_keys_callers_iff hNames]
    refine ⟨?_, .inl⟩
    rintro (hFacts | ⟨caller, written, hCalls⟩)
    · exact hFacts
    · exact (hPopulates.mem_keys_of_callsAs hResolves hCalls).2.1
  · intro callee caller e hEdge
    rcases hGraph.mem_of_edgeBetween hEdge with
      ⟨hMem, -, rfl⟩
    exact ⟨(hPopulates.mem_keys_of_callsAs hResolves
      ((hDispatches e).mp hMem)).1, hMem⟩

end Populates

/-
  However often types and methods are declared in several files:
  where files are resolved, the resolution can be put into a
  new database and built, and every method that is named in it
  has facts.
-/
theorem populate_closed
    (settings : Settings)
    (hResolved : Resolution.ofFiles files = .ok r) :
    ∃ db, r.populate (.empty settings) = .ok db ∧
      db.build.failure = none ∧
      db.build.database.Closed := by
  rcases ofFiles_eq_ok_iff.mp hResolved with
    ⟨bodies, hResolves⟩
  rcases hResolves.exists_populate settings with
    ⟨db, hRun, hPopulates⟩
  exact ⟨db, hRun, hPopulates.build_failure_eq_none,
    hPopulates.closed_build hResolves⟩

/-
  Two files that declare one type and one method, whose bodies
  call a method outside and the method itself, both inside a
  handler.
-/
def redeclared : List FileSummary := [
  { path := "A.java"
    package := some "p"
    imports := ["java.nio.file.Files"]
    types := [
      { fqn := "p.A"
        extended := some []
        implemented := some ["I"] },
      { fqn := "p.I"
        extended := some []
        implemented := some [] }]
    methods := some [
      { owner := some "p.A"
        name := some "f"
        sig := some "p.A#f()"
        params := some []
        throws := some []
        isConstructor := some false }]
    statements := some [
      { kind := some .call
        owner := some "p.A#f()"
        parts := some {
          recv := some (some "Files")
          name := some "readString"
          arity := some 1
          handlers := some ["Error"] }
        range := some ⟨0, 1⟩ }] },
  { path := "B.java"
    package := some "p"
    types := [
      { fqn := "p.A"
        extended := some []
        implemented := some [] }]
    methods := some [
      { owner := some "p.A"
        name := some "f"
        sig := some "p.A#f()"
        params := some []
        throws := some ["Error"]
        isConstructor := some false }]
    statements := some [
      { kind := some .call
        owner := some "p.A#f()"
        parts := some {
          recv := some none
          name := some "f"
          arity := some 0
          handlers := some ["Error"] }
        range := some ⟨0, 1⟩ }] }]

theorem populate_closed_redeclared :
    ∃ r db, Resolution.ofFiles redeclared = .ok r ∧
      r.populate (.empty {}) = .ok db ∧
      db.build.failure = none ∧
      db.build.database.Closed := by
  have hSuccess : Succeeds (Resolution.ofFiles redeclared) :=
    succeeds_ofFiles (by decide) (by decide)
  rcases hSuccess with ⟨r, hResolved⟩
  rcases populate_closed {} hResolved with
    ⟨db, hRun, hSuccess, hClosed⟩
  exact ⟨r, db, hResolved, hRun, hSuccess, hClosed⟩

end Resolution

end Uncaught
