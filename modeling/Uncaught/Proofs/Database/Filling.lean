import Uncaught.Proofs.Database.Stages

/-
  This file defines how a database is filled and built, and
  shows what a built database holds: its call graph belongs to
  its own facts and classes.

  Key definitions include:
    * `Addition`
    * `Database.fill`
    * `Database.BuiltFrom`
    * `Database.GraphOf`
    * `Database.BuiltGraph`

  Main declarations:
    * `Database.facts_eq_of_fill`
    * `Database.classes_eq_of_fill`
    * `Database.Unbuilt.builtGraph`
    * `Database.BuiltFrom.graphOf`
    * `Database.BuiltFrom.facts`
    * `Database.BuiltFrom.classes`
-/

namespace Uncaught

------------------------------------------------------------
-- Additions
------------------------------------------------------------

/- What can be put into a database before it is built. -/
inductive Addition where
  | facts (f : MethodFacts)
  | known (s : Signature)
  | binding (name : String) (b : ClassBinding)

namespace Addition

/- All the signatures that an addition names. -/
def signatures : Addition → List Signature
  | facts f => f.signature :: f.calls ++ f.handlers.keys
  | known s => [s]
  | binding _ b =>
      match b.read with
      | .ok c => c.methods
      | .error _ => []

/- The entry that an addition makes among the facts. -/
def factsEntry : Addition → Option (Signature × MethodFacts)
  | facts f => some (f.signature, f)
  | _ => none

/- The entry that an addition makes among the classes. -/
def classEntry : Addition → Option (String × ClassBinding)
  | binding name b => some (name, b)
  | _ => none

/- A class is bound under the name that its record has. -/
def OwnName : Addition → Prop
  | binding name b => ∀ c, b.read = .ok c → c.name = name
  | _ => True

end Addition

namespace Database

/- Put something into a database. -/
def add
    (db : Database) : Addition → Outcome Database
  | .facts f => db.addMethod f
  | .known s => db.addBound s
  | .binding name b => db.addClass name b

/- Put one thing after another into an empty database. -/
def fill
    (settings : Settings)
    (additions : List Addition) : Outcome Database :=
  additions.foldlM add (empty settings)

/-
  A database that was filled with additions, and of which the
  call graph was made then.
-/
def BuiltFrom
    (settings : Settings)
    (additions : List Addition)
    (db : Database) : Prop :=
  ∃ filled, fill settings additions = .ok filled ∧
    filled.build.failure = none ∧
      filled.build.database = db

------------------------------------------------------------
-- Filling
------------------------------------------------------------

variable {settings : Settings} {additions : List Addition}
variable {db after : Database}

/- A database of which no stage has run. -/
structure Unbuilt
    (db : Database) : Prop where
  isOpen : db.isSealed = false
  calls : db.calls = []
  dispatches : db.dispatches = []
  callers : db.callers = .empty

/- What one addition does to a database. -/
theorem add_cases
    {a : Addition}
    (hAdd : db.add a = .ok after) :
    (∃ f, a = .facts f ∧
      after =
        { db with facts := db.facts.insert f.signature f }) ∨
    (∃ s, a = .known s ∧
      after = { db with bound := after.bound }) ∨
    (∃ name b, a = .binding name b ∧
      after =
        { db with classes := db.classes.insert name b }) := by
  cases a with
  | facts f =>
      rcases bind_eq_ok_iff.mp hAdd with ⟨-, -, hAfter⟩
      cases hAfter
      exact .inl ⟨f, rfl, rfl⟩
  | known s =>
      rcases bind_eq_ok_iff.mp hAdd with ⟨-, -, hAfter⟩
      cases hAfter
      exact .inr (.inl ⟨s, rfl, rfl⟩)
  | binding name b =>
      rcases bind_eq_ok_iff.mp hAdd with ⟨-, -, hAfter⟩
      cases hAfter
      exact .inr (.inr ⟨name, b, rfl, rfl⟩)

theorem Unbuilt.add
    {a : Addition}
    (hUnbuilt : db.Unbuilt)
    (hAdd : db.add a = .ok after) :
    after.Unbuilt := by
  rcases add_cases hAdd with
    ⟨f, -, hAfter⟩ | ⟨s, -, hAfter⟩ | ⟨name, b, -, hAfter⟩
  all_goals
    rw [hAfter]
    exact ⟨hUnbuilt.isOpen, hUnbuilt.calls,
      hUnbuilt.dispatches, hUnbuilt.callers⟩

/- Filling makes no call graph. -/
theorem unbuilt_of_fill
    (hFill : fill settings additions = .ok db) :
    db.Unbuilt := by
  apply foldlM_preserves (P := Unbuilt) _ _ hFill
  · exact ⟨rfl, rfl, rfl, rfl⟩
  · intro before a _ after hBefore hAdd
    exact hBefore.add hAdd

theorem settings_of_fill
    (hFill : fill settings additions = .ok db) :
    db.settings = settings := by
  apply foldlM_preserves
    (P := fun db => db.settings = settings) _ _ hFill
  · rfl
  · intro before a _ after hBefore hAdd
    rcases add_cases hAdd with
      ⟨f, -, hAfter⟩ | ⟨s, -, hAfter⟩ | ⟨name, b, -, hAfter⟩
    all_goals
      rw [hAfter]
      exact hBefore

/- Nothing keeps an open database from being filled. -/
theorem exists_fill
    (settings : Settings)
    (additions : List Addition) :
    ∃ db, fill settings additions = .ok db := by
  have hStep :
      ∀ db : Database, ∀ a ∈ additions, db.isSealed = false →
        ∃ after, db.add a = .ok after ∧
          after.isSealed = false := by
    intro db a _ hOpen
    cases a <;>
      simp [add, addMethod, addBound, addClass, checkOpen, hOpen,
        bind, Except.bind, pure, Except.pure]
  have hRun :
      ∃ db, additions.foldlM add (empty settings) = .ok db ∧
        db.isSealed = false :=
    exists_foldlM rfl hStep
  exact hRun.imp fun db hFill => hFill.1

/- The facts of a filled database are those that were added. -/
theorem facts_eq_of_fill
    (hFill : fill settings additions = .ok db) :
    db.facts =
      .ofList (additions.filterMap Addition.factsEntry) := by
  rw [Table.ofList, List.foldl_filterMap]
  refine foldlM_eq_foldl (V := Database.facts) ?_ hFill
  intro before a _ after hAdd
  rcases add_cases hAdd with
    ⟨f, rfl, hAfter⟩ | ⟨s, rfl, hAfter⟩ | ⟨name, b, rfl, hAfter⟩
  all_goals
    rw [hAfter]
    rfl

/- The classes of a filled database are those that were added. -/
theorem classes_eq_of_fill
    (hFill : fill settings additions = .ok db) :
    db.classes =
      .ofList (additions.filterMap Addition.classEntry) := by
  rw [Table.ofList, List.foldl_filterMap]
  refine foldlM_eq_foldl (V := Database.classes) ?_ hFill
  intro before a _ after hAdd
  rcases add_cases hAdd with
    ⟨f, rfl, hAfter⟩ | ⟨s, rfl, hAfter⟩ | ⟨name, b, rfl, hAfter⟩
  all_goals
    rw [hAfter]
    rfl

/- Facts stand under their own signature, as they were added. -/
theorem facts_of_fill
    (hFill : fill settings additions = .ok db) :
    ∀ s f, db.facts.get? s = some f →
      f.signature = s ∧ .facts f ∈ additions := by
  intro s f hFacts
  rw [facts_eq_of_fill hFill] at hFacts
  rcases List.mem_filterMap.mp
      (Table.mem_of_get?_ofList hFacts) with
    ⟨a, hMem, hEntry⟩
  cases a with
  | facts g =>
      cases hEntry
      exact ⟨rfl, hMem⟩
  | known s => cases hEntry
  | binding name b => cases hEntry

/- A method becomes known once. -/
theorem bound_of_add
    {s : Signature}
    (hAdd : db.add (.known s) = .ok after) :
    after.bound =
      if s ∈ db.bound then db.bound else db.bound ++ [s] := by
  rcases bind_eq_ok_iff.mp hAdd with ⟨-, -, hAfter⟩
  cases hAfter
  rfl

/- Methods are known that were added. -/
theorem mem_bound_iff_of_fill
    (hFill : fill settings additions = .ok db)
    (s : Signature) :
    s ∈ db.bound ↔ .known s ∈ additions := by
  have hStep :
      ∀ before : Database, ∀ a ∈ additions, ∀ after,
        before.add a = .ok after →
          (s ∈ after.bound ↔
            s ∈ before.bound ∨ a = .known s) := by
    intro before a _ after hAdd
    rcases add_cases hAdd with
      ⟨f, rfl, hAfter⟩ | ⟨t, rfl, -⟩ | ⟨name, b, rfl, hAfter⟩
    · rw [hAfter]
      simp
    · rw [bound_of_add hAdd]
      split
      · next hKnown =>
          constructor
          · exact .inl
          · rintro (hOld | hNew)
            · exact hOld
            · cases hNew
              exact hKnown
      · rw [List.mem_append, List.mem_singleton,
          Addition.known.injEq, eq_comm (a := s)]
    · rw [hAfter]
      simp
  rw [foldlM_iff (M := fun db => s ∈ db.bound) hStep hFill]
  simp [empty]

theorem bound_of_fill
    (hFill : fill settings additions = .ok db) :
    ∀ s ∈ db.bound, .known s ∈ additions :=
  fun s => (mem_bound_iff_of_fill hFill s).mp

/- Classes are bound as they were added. -/
theorem classes_of_fill
    (hFill : fill settings additions = .ok db) :
    ∀ name b, db.classes.get? name = some b →
      .binding name b ∈ additions := by
  intro name b hClass
  rw [classes_eq_of_fill hFill] at hClass
  rcases List.mem_filterMap.mp
      (Table.mem_of_get?_ofList hClass) with
    ⟨a, hMem, hEntry⟩
  cases a with
  | facts f => cases hEntry
  | known s => cases hEntry
  | binding new c =>
      cases hEntry
      exact hMem

------------------------------------------------------------
-- Building
------------------------------------------------------------

/-
  A sealed database whose call graph belongs to its own facts
  and classes.
-/
structure GraphOf
    (db : Database)
    (records : List ClassRecord) : Prop where
  isSealed : db.isSealed = true
  records_eq : db.records = .ok records
  hierarchy_eq : db.hierarchy = some (.ofRecords records)
  mem_dispatches :
    ∀ e, e ∈ db.dispatches ↔
      ∃ call ∈ db.writtenCalls,
        e ∈ dispatch (.ofRecords records) call
  callers_eq : db.callers = db.indexOver .empty

/-
  A call graph that building made from nothing: in addition the
  calls are the written ones, and no dispatched call comes
  twice.
-/
structure BuiltGraph
    (db : Database)
    (records : List ClassRecord) : Prop
    extends GraphOf db records where
  mem_calls : ∀ e, e ∈ db.calls ↔ e ∈ db.writtenCalls
  nodup : db.dispatches.Nodup

/- Building brings in no dispatched call twice. -/
theorem Unbuilt.nodup_dispatches
    (hUnbuilt : db.Unbuilt) :
    db.build.database.dispatches.Nodup := by
  apply build_preserves (P := fun db => db.dispatches.Nodup)
  · intro db stage after events hNodup hStage
    cases stage with
    | facts =>
        rcases completeFacts_spec hStage with ⟨facts, rfl, -⟩
        exact hNodup
    | classes =>
        rcases linkClasses_spec hStage with ⟨records, -, rfl⟩
        exact hNodup
    | calls =>
        rcases collectCalls_spec hStage with ⟨calls, rfl, -⟩
        exact hNodup
    | dispatches => exact nodup_dispatchCalls hNodup hStage
    | callers =>
        rw [indexCallers_spec hStage]
        exact hNodup
  · intro db hNodup
    exact hNodup
  · rw [hUnbuilt.dispatches]
    exact .nil

/- Building makes the call graph of what is there. -/
theorem Unbuilt.builtGraph
    (hUnbuilt : db.Unbuilt)
    (hSuccess : db.build.failure = none) :
    ∃ records, db.build.database.BuiltGraph records := by
  have hNodup := hUnbuilt.nodup_dispatches
  rcases build_spec hSuccess with
    ⟨-, records, facts, calls, dispatches, hRecords, -, hCalls,
      hDispatches, hBuild⟩
  refine ⟨records, ?_⟩
  rw [hBuild] at hNodup ⊢
  refine ⟨⟨rfl, hRecords, rfl, ?_, ?_⟩, ?_, hNodup⟩
  · intro e
    rw [hDispatches e, hUnbuilt.dispatches]
    simp only [hCalls, hUnbuilt.calls, List.not_mem_nil,
      false_or]
    rfl
  · rw [hUnbuilt.callers]
    rfl
  · intro e
    rw [hCalls e, hUnbuilt.calls]
    simp only [List.not_mem_nil, false_or]
    rfl

/- Building makes the call graph of what was filled in. -/
theorem BuiltFrom.builtGraph
    (hBuilt : BuiltFrom settings additions db) :
    ∃ records, db.BuiltGraph records := by
  rcases hBuilt with ⟨filled, hFill, hSuccess, rfl⟩
  exact (unbuilt_of_fill hFill).builtGraph hSuccess

theorem BuiltFrom.graphOf
    (hBuilt : BuiltFrom settings additions db) :
    ∃ records, db.GraphOf records := by
  rcases hBuilt.builtGraph with ⟨records, hGraph⟩
  exact ⟨records, hGraph.toGraphOf⟩

theorem BuiltFrom.settings_eq
    (hBuilt : BuiltFrom settings additions db) :
    db.settings = settings := by
  rcases hBuilt with ⟨filled, hFill, hSuccess, rfl⟩
  rcases build_spec hSuccess with
    ⟨-, records, facts, calls, dispatches, -, -, -, -, hBuild⟩
  have hSettings := settings_of_fill hFill
  rw [hBuild]
  exact hSettings

/-
  The facts of a built database were added, or are bare, and
  stand under their own signature.
-/
theorem BuiltFrom.facts
    (hBuilt : BuiltFrom settings additions db)
    {s : Signature}
    {f : MethodFacts}
    (hFacts : db.facts.get? s = some f) :
    f.signature = s ∧
      (.facts f ∈ additions ∨ f = { signature := s }) := by
  rcases hBuilt with ⟨filled, hFill, hSuccess, rfl⟩
  rcases build_spec hSuccess with
    ⟨-, records, facts, calls, dispatches, -, hCompleted, -, -,
      hBuild⟩
  rw [hBuild, hCompleted s, Option.or_eq_some_iff] at hFacts
  rcases hFacts with hAdded | ⟨-, hBare⟩
  · rcases facts_of_fill hFill s f hAdded with ⟨hOwn, hMem⟩
    exact ⟨hOwn, .inl hMem⟩
  · by_cases hKnown : s ∈ filled.bound
    · rw [if_pos hKnown] at hBare
      cases hBare
      exact ⟨rfl, .inr rfl⟩
    · simp [hKnown] at hBare

/- The classes of a built database were added. -/
theorem BuiltFrom.classes
    (hBuilt : BuiltFrom settings additions db)
    {name : String}
    {b : ClassBinding}
    (hClass : db.classes.get? name = some b) :
    .binding name b ∈ additions := by
  rcases hBuilt with ⟨filled, hFill, hSuccess, rfl⟩
  rcases build_spec hSuccess with
    ⟨-, records, facts, calls, dispatches, -, -, -, -, hBuild⟩
  rw [hBuild] at hClass
  exact classes_of_fill hFill name b hClass

end Database

end Uncaught
